import TcpipCourse.L07.Integrity

/-!
# Lesson 07: the outcome of every push and read

For any valid window, with any bitmap and any bytes in it.

* `Clash` : a received position holds another byte than the input has for it;
* `StoredBy` : what a window looks like after a segment has been stored;
* `MaximalRun` : the run of received positions after the cursor; `maximalRun_available` : a read counts it;
* `reassembly_outcome` : the status, the count and the effect of every push and of every read.
-/

namespace TcpipCourse.L07
open Lib

/-- Some position of `[o, o + n)` has been received with another byte than the input has. -/
def Clash (ctx : Reassembly) (o : Nat) (input : Bytes) : Prop :=
  ∃ i ∈ stretch o input.length, i ∈ ctx.received ∧ ctx.data.getD i 0 ≠ input.getD (i - o) 0

/-- `ctx'` is `ctx` with the input stored at `[o, o + n)` and nothing else changed. -/
structure StoredBy (ctx : Reassembly) (o : Nat) (input : Bytes) (ctx' : Reassembly) : Prop where
  received : ctx'.received = stretch o input.length ∪ ctx.received
  stored : ∀ i ∈ stretch o input.length,
    ctx'.present.getD i 0 = 1 ∧ ctx'.data.getD i 0 = input.getD (i - o) 0
  present : ∀ i ∉ stretch o input.length, ctx'.present.getD i 0 = ctx.present.getD i 0
  data : ∀ i ∉ stretch o input.length, ctx'.data.getD i 0 = ctx.data.getD i 0
  initialSeq : ctx'.initialSeq = ctx.initialSeq
  capacity : ctx'.capacity = ctx.capacity
  readOffset : ctx'.readOffset = ctx.readOffset

/-- `r` positions from the cursor on have been received, and the next one has not. -/
def MaximalRun (ctx : Reassembly) (r : Nat) : Prop :=
  (∀ i ∈ stretch ctx.readOffset r, i ∈ ctx.received) ∧ ctx.readOffset + r ∉ ctx.received

/-! ## Pushes -/

section Push
variable {ctx : Reassembly} {o : Nat} {input : Bytes}

/-- The scan of the code counts from the first byte of the input, a clash names the position. -/
theorem conflict_iff_clash : Conflict ctx o input ↔ Clash ctx o input := by
  constructor
  · rintro ⟨j, hj, hp, hd⟩
    refine ⟨o + j, ?_, mem_received.mpr hp, ?_⟩
    · rw [mem_stretch]
      omega
    · rwa [Nat.add_sub_cancel_left]
  · rintro ⟨i, hi, hp, hd⟩
    rw [mem_stretch] at hi
    have hio : o + (i - o) = i := by omega
    refine ⟨i - o, by omega, ?_, ?_⟩
    · rw [hio]
      exact mem_received.mp hp
    · rwa [hio]

theorem storedBy_write (hfit : o + input.length ≤ ctx.capacity) :
    StoredBy ctx o input (ctx.write o input) where
  received := received_write hfit
  stored := fun i hi => by
    rw [getD_present_write hfit, getD_data_write hfit, if_pos hi, if_pos hi]
    exact ⟨rfl, rfl⟩
  present := fun i hi => by rw [getD_present_write hfit, if_neg hi]
  data := fun i hi => by rw [getD_data_write hfit, if_neg hi]
  initialSeq := rfl
  capacity := rfl
  readOffset := rfl

end Push

/-! ## Reads -/

section Read
variable {ctx : Reassembly}

theorem lt_capacity_of_mem_received {i : Nat} (h : i ∈ ctx.received) : i < ctx.capacity := by
  rw [Reassembly.received, Finset.mem_filter, Finset.mem_range] at h
  exact h.1

/-- The loop of a read counts the maximal run. -/
theorem maximalRun_available (hcursor : ctx.readOffset ≤ ctx.capacity) : MaximalRun ctx ctx.available := by
  obtain ⟨hle, hrun⟩ := available_spec hcursor
  constructor
  · intro i hi
    rw [mem_stretch] at hi
    exact hrun i hi.2 hi.1
  · intro hmem
    have hlt := lt_capacity_of_mem_received hmem
    have hlong : ctx.readOffset + ctx.available + 1 ≤ ctx.present.length := by
      rw [ctx.present_length]
      omega
    have hall : ∀ a ∈ slice ctx.present ctx.readOffset (ctx.available + 1), decide (a ≠ 0) = true := by
      intro a ha
      obtain ⟨k, hk, rfl⟩ := List.getElem_of_mem ha
      rw [length_slice (by omega)] at hk
      rw [decide_eq_true_eq, ← List.getD_eq_getElem _ 0, getD_slice hk, ← mem_received]
      rcases Nat.lt_succ_iff_lt_or_eq.mp hk with hlt | rfl
      · exact hrun _ (by omega) (by omega)
      · exact hmem
    have hsplit : (ctx.present.drop ctx.readOffset).takeWhile (· ≠ 0) =
        slice ctx.present ctx.readOffset (ctx.available + 1) ++
          (ctx.present.drop (ctx.readOffset + (ctx.available + 1))).takeWhile (· ≠ 0) := by
      rw [← List.takeWhile_append_of_pos hall, slice_append_drop]
    have hcount := congrArg List.length hsplit
    rw [List.length_append, length_slice (by omega), ← Reassembly.available] at hcount
    omega

theorem MaximalRun.unique {r r' : Nat} (h : MaximalRun ctx r) (h' : MaximalRun ctx r') : r = r' := by
  rcases Nat.lt_trichotomy r r' with hlt | heq | hgt
  · refine absurd (h'.1 _ ?_) h.2
    rw [mem_stretch]
    omega
  · exact heq
  · refine absurd (h.1 _ ?_) h'.2
    rw [mem_stretch]
    omega

theorem reassemblyRead_eq (hv : reassemblyIsValid ctx = true) (outCapacity : Nat) :
    reassemblyRead ctx outCapacity =
      if ctx.available > outCapacity then ⟨.truncated, [], ctx⟩
      else ⟨.ok, slice ctx.data ctx.readOffset ctx.available,
        { ctx with readOffset := ctx.readOffset + ctx.available }⟩ := by
  simp only [reassemblyRead, hv, Bool.not_true, Bool.false_eq_true, if_false]

end Read

/-- **The outcome of every operation.** A push of at least one byte to a valid window is over capacity exactly
when its end is past the capacity, malformed exactly when it fits and clashes with a received byte, and else
accepted; accepted, it stores its bytes and nothing else and counts the positions that were missing; else it
counts nothing and leaves the window alone. A read that cannot hold the maximal run after the cursor changes
nothing; any other read delivers that run and moves the cursor behind it. -/
theorem reassembly_outcome (ctx : Reassembly) (hv : reassemblyIsValid ctx = true) :
    (∀ (seq : UInt32) (input : Bytes), 1 ≤ input.length →
      let o := (seq - ctx.initialSeq).toNat
      let reply := reassemblyPush ctx seq input
      (reply.status = .capacity ↔ o + input.length > ctx.capacity) ∧
        (reply.status = .malformed ↔ o + input.length ≤ ctx.capacity ∧ Clash ctx o input) ∧
        (reply.status = .ok ↔ o + input.length ≤ ctx.capacity ∧ ¬ Clash ctx o input) ∧
        (reply.status = .ok → reply.accepted = (stretch o input.length \ ctx.received).card ∧
          StoredBy ctx o input reply.ctx) ∧
        (reply.status ≠ .ok → reply.accepted = 0 ∧ reply.ctx = ctx)) ∧
    ∀ outCapacity : Nat, ∃ r, (∀ r', MaximalRun ctx r' ↔ r' = r) ∧
      let reply := reassemblyRead ctx outCapacity
      (reply.status = .truncated ↔ r > outCapacity) ∧
        (reply.status = .ok ↔ r ≤ outCapacity) ∧
        (r > outCapacity → reply.produced = [] ∧ reply.ctx = ctx) ∧
        (r ≤ outCapacity → reply.produced = slice ctx.data ctx.readOffset r ∧ reply.produced.length = r ∧
          reply.ctx = { ctx with readOffset := ctx.readOffset + r }) := by
  constructor
  · intro seq input hlen o reply
    have hreply : reply = _ := reassemblyPush_eq hv seq (by omega)
    dsimp only at hreply
    rw [hreply, ← conflict_iff_clash, ← absent_eq_sdiff]
    by_cases hfit : o + input.length > ctx.capacity
    · rw [if_pos hfit]
      simp [hfit]
    · rw [if_neg hfit]
      by_cases hclash : Conflict ctx o input
      · rw [if_pos hclash]
        simp [hfit, hclash]
        omega
      · rw [if_neg hclash]
        have hstored := @storedBy_write ctx o input (by omega)
        simp [hfit, hclash, hstored, o]
        omega
  · intro outCapacity
    have hcursor : ctx.readOffset ≤ ctx.capacity := by
      rw [reassemblyIsValid, Bool.and_eq_true, decide_eq_true_eq, decide_eq_true_eq] at hv
      exact hv.2
    have hrun := maximalRun_available hcursor
    have hinside := (available_spec hcursor).1
    refine ⟨ctx.available, fun r' => ⟨fun h => h.unique hrun, fun h => h ▸ hrun⟩, ?_⟩
    dsimp only
    rw [reassemblyRead_eq hv]
    by_cases hbig : ctx.available > outCapacity
    · rw [if_pos hbig]
      simp [hbig]
    · rw [if_neg hbig]
      have hlen : (slice ctx.data ctx.readOffset ctx.available).length = ctx.available :=
        length_slice (by rw [ctx.data_length]; exact hinside)
      simp [hbig, hlen]
      omega

theorem reassembly_outcome_last_byte :
    let ctx : Reassembly := ⟨0xfffffffe, [5, 6, 7], [0, 1, 1], 3, 1, rfl, rfl⟩
    (reassemblyPush ctx 0xfffffffe [5, 6, 8]).status = .malformed ∧
      (reassemblyPush ctx 0xffffffff [6, 7, 8]).status = .capacity ∧
      (reassemblyPush ctx 0xfffffffe [4, 6, 7]).accepted = 1 := by
  intro ctx
  have hpush := (reassembly_outcome ctx rfl).1
  refine ⟨(hpush _ _ (by decide)).2.1.mpr ⟨by decide, 2, by decide, by decide, by decide⟩,
    (hpush _ _ (by decide)).1.mpr (by decide), ?_⟩
  exact ((hpush 0xfffffffe [4, 6, 7] (by decide)).2.2.2.1 (by decide)).1.trans (by decide)

end TcpipCourse.L07
