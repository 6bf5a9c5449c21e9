import TcpipCourse.L07.Order

/-!
# Lesson 07: what a window has delivered stays delivered

Nothing is assumed about the senders: sequence numbers, contents and read capacities are arbitrary, and
segments may contradict each other.

* `Reassembly.received` : the positions of the bitmap that are set;
* `reassemblyPush_cases`, `reassemblyRead_cases` : all that a push and a read can do;
* `Sane` : the bitmap and the cursor agree; `Keeps` : received bytes stay as they are;
* `Account` : the two histories (accepted counts, bytes read) against the window;
* `reassembly_integrity` : all of it, in every state of every run.
-/

namespace TcpipCourse.L07
open Lib

def Reassembly.received (ctx : Reassembly) : Finset Nat :=
  (Finset.range ctx.capacity).filter fun i => ctx.present.getD i 0 ≠ 0

theorem mem_received {ctx : Reassembly} {i : Nat} : i ∈ ctx.received ↔ ctx.present.getD i 0 ≠ 0 := by
  rw [Reassembly.received, Finset.mem_filter, Finset.mem_range, and_iff_right_iff_imp]
  intro hi
  by_contra hge
  exact hi (List.getD_eq_default _ _ (by rw [ctx.present_length]; omega))

/-! ## What a push and a read do -/

section Calls
variable {ctx : Reassembly}

/-- A push changes nothing and counts nothing, or it fits, contradicts nothing and is stored. -/
theorem reassemblyPush_cases (hv : reassemblyIsValid ctx = true) (seq : UInt32) (input : Bytes) :
    (∃ status, reassemblyPush ctx seq input = ⟨status, 0, ctx⟩ ∧ (status = .ok → input = [])) ∨
    ((seq - ctx.initialSeq).toNat + input.length ≤ ctx.capacity ∧
      ¬ Conflict ctx (seq - ctx.initialSeq).toNat input ∧
      reassemblyPush ctx seq input =
        ⟨.ok, (absent ctx (seq - ctx.initialSeq).toNat input.length).card,
          ctx.write (seq - ctx.initialSeq).toNat input⟩) := by
  by_cases hne : input.length = 0
  · have hnil : input = [] := List.eq_nil_of_length_eq_zero hne
    subst hnil
    exact .inl ⟨.ok, by simp [reassemblyPush, hv], fun _ => rfl⟩
  · rw [reassemblyPush_eq hv seq hne]
    dsimp only
    split
    · exact .inl ⟨.capacity, rfl, fun h => by cases h⟩
    · split
      · exact .inl ⟨.malformed, rfl, fun h => by cases h⟩
      · next hfit hno => exact .inr ⟨by omega, hno, rfl⟩

/-- The run counted by a read lies inside the window and every position of it has been received. -/
theorem available_spec (hcursor : ctx.readOffset ≤ ctx.capacity) :
    ctx.readOffset + ctx.available ≤ ctx.capacity ∧
      ∀ i < ctx.readOffset + ctx.available, ctx.readOffset ≤ i → i ∈ ctx.received := by
  have hpre : (ctx.present.drop ctx.readOffset).takeWhile (· ≠ 0) <+: ctx.present.drop ctx.readOffset :=
    List.takeWhile_prefix _
  have hle : ctx.available ≤ ctx.capacity - ctx.readOffset := by
    have := hpre.length_le
    rwa [List.length_drop, ctx.present_length] at this
  refine ⟨by omega, fun i hi hge => ?_⟩
  have hlt : i - ctx.readOffset < ((ctx.present.drop ctx.readOffset).takeWhile (· ≠ 0)).length := by
    rw [← Reassembly.available]
    omega
  have hne := List.mem_takeWhile_imp (List.getElem_mem hlt)
  rw [hpre.getElem hlt, List.getElem_drop, decide_eq_true_eq] at hne
  rw [mem_received, List.getD_eq_getElem _ _ (by rw [ctx.present_length]; omega)]
  simpa [show ctx.readOffset + (i - ctx.readOffset) = i by omega] using hne

/-- A read produces nothing and moves nothing, or it produces the run after the cursor and moves past it. -/
theorem reassemblyRead_cases (ctx : Reassembly) (outCapacity : Nat) :
    (∃ status, reassemblyRead ctx outCapacity = ⟨status, [], ctx⟩) ∨
    reassemblyRead ctx outCapacity = ⟨.ok, slice ctx.data ctx.readOffset ctx.available,
      { ctx with readOffset := ctx.readOffset + ctx.available }⟩ := by
  unfold reassemblyRead
  split
  · exact .inl ⟨_, rfl⟩
  · split
    · exact .inl ⟨_, rfl⟩
    · exact .inr rfl

theorem absent_eq_sdiff (ctx : Reassembly) (o n : Nat) : absent ctx o n = stretch o n \ ctx.received := by
  ext i
  rw [absent, Finset.mem_filter, Finset.mem_sdiff, mem_received, not_not]

theorem received_write {o : Nat} {input : Bytes} (hfit : o + input.length ≤ ctx.capacity) :
    (ctx.write o input).received = stretch o input.length ∪ ctx.received := by
  ext i
  rw [mem_received, getD_present_write hfit, Finset.mem_union, mem_received]
  by_cases hi : i ∈ stretch o input.length <;> simp [hi]

theorem getD_of_not_conflict {o : Nat} {input : Bytes} (hno : ¬ Conflict ctx o input) {j : Nat}
    (hj : j < input.length) (hmem : o + j ∈ ctx.received) : ctx.data.getD (o + j) 0 = input.getD j 0 := by
  by_contra hne
  exact hno ⟨j, hj, mem_received.mp hmem, hne⟩

end Calls

/-! ## The bitmap and the cursor -/

/-- Bitmap bytes are 0 or 1, and everything before the cursor has been received. -/
structure Sane (ctx : Reassembly) : Prop where
  bound : ctx.capacity ≤ uint32Max
  bits : ∀ bit ∈ ctx.present, bit = 0 ∨ bit = 1
  cursor : ctx.readOffset ≤ ctx.capacity
  delivered : ∀ i < ctx.readOffset, i ∈ ctx.received

/-- `ctx'` is `ctx` with more received and more delivered: no byte received has changed. -/
structure Keeps (ctx ctx' : Reassembly) : Prop where
  initialSeq : ctx'.initialSeq = ctx.initialSeq
  capacity : ctx'.capacity = ctx.capacity
  cursor : ctx.readOffset ≤ ctx'.readOffset
  received : ctx.received ⊆ ctx'.received
  data : ∀ i ∈ ctx.received, ctx'.data.getD i 0 = ctx.data.getD i 0

theorem Keeps.refl (ctx : Reassembly) : Keeps ctx ctx :=
  ⟨rfl, rfl, Nat.le_refl _, Finset.Subset.refl _, fun _ _ => rfl⟩

theorem Keeps.trans {ctx ctx' ctx'' : Reassembly} (h : Keeps ctx ctx') (h' : Keeps ctx' ctx'') :
    Keeps ctx ctx'' :=
  { initialSeq := h'.initialSeq.trans h.initialSeq
    capacity := h'.capacity.trans h.capacity
    cursor := Nat.le_trans h.cursor h'.cursor
    received := Finset.Subset.trans h.received h'.received
    data := fun i hi => (h'.data i (h.received hi)).trans (h.data i hi) }

theorem Keeps.take_eq {ctx ctx' : Reassembly} (h : Keeps ctx ctx') (hs : Sane ctx) :
    ctx'.data.take ctx.readOffset = ctx.data.take ctx.readOffset := by
  have hcursor := hs.cursor
  refine List.ext_getElem ?_ fun i h1 h2 => ?_
  · rw [List.length_take, List.length_take, ctx.data_length, ctx'.data_length, h.capacity]
  · rw [List.length_take, ctx.data_length] at h2
    rw [List.getElem_take, List.getElem_take, ← List.getD_eq_getElem _ 0, ← List.getD_eq_getElem _ 0]
    exact h.data i (hs.delivered i (by omega))

section Steps
variable {ctx : Reassembly}

theorem Sane.valid (h : Sane ctx) : reassemblyIsValid ctx = true := by
  have := h.bound
  have := h.cursor
  simp only [reassemblyIsValid, Bool.and_eq_true, decide_eq_true_eq]
  exact ⟨by assumption, by assumption⟩

theorem sane_init {initialSeq : UInt32} {data : Bytes} (h : reassemblyInit initialSeq data = .ok ctx) :
    Sane ctx ∧ ctx.received = ∅ ∧ ctx.readOffset = 0 ∧ ctx.initialSeq = initialSeq := by
  unfold reassemblyInit at h
  split at h
  · cases h
  · next hbound =>
    cases h
    refine ⟨⟨by dsimp only; omega, ?_, Nat.zero_le _, fun i hi => absurd hi (Nat.not_lt_zero i)⟩, ?_, rfl, rfl⟩
    · intro bit hbit
      exact .inl (List.eq_of_mem_replicate hbit)
    · ext i
      rw [mem_received]
      simp

theorem Sane.write (h : Sane ctx) {o : Nat} {input : Bytes} (hfit : o + input.length ≤ ctx.capacity) :
    Sane (ctx.write o input) where
  bound := h.bound
  bits := by
    intro bit hbit
    obtain ⟨i, hi, rfl⟩ := List.getElem_of_mem hbit
    rw [← List.getD_eq_getElem _ 0, getD_present_write hfit]
    split
    · exact .inr rfl
    · rw [(ctx.write o input).present_length] at hi
      have hi' : i < ctx.present.length := by rw [ctx.present_length]; exact hi
      rw [List.getD_eq_getElem _ _ hi']
      exact h.bits _ (List.getElem_mem hi')
  cursor := h.cursor
  delivered := fun i hi => by
    rw [received_write hfit]
    exact Finset.mem_union_right _ (h.delivered i hi)

theorem Keeps.write {o : Nat} {input : Bytes} (hfit : o + input.length ≤ ctx.capacity)
    (hno : ¬ Conflict ctx o input) : Keeps ctx (ctx.write o input) where
  initialSeq := rfl
  capacity := rfl
  cursor := Nat.le_refl _
  received := by
    rw [received_write hfit]
    exact Finset.subset_union_right
  data := fun i hi => by
    rw [getD_data_write hfit]
    split
    · next hmem =>
      rw [mem_stretch] at hmem
      have hio : o + (i - o) = i := by omega
      rw [← getD_of_not_conflict hno (by omega) (by rwa [hio]), hio]
    · rfl

theorem Sane.advance (h : Sane ctx) :
    Sane { ctx with readOffset := ctx.readOffset + ctx.available } := by
  obtain ⟨hle, hrun⟩ := available_spec h.cursor
  exact
    { bound := h.bound
      bits := h.bits
      cursor := hle
      delivered := fun i hi => by
        by_cases hlt : i < ctx.readOffset
        · exact h.delivered i hlt
        · exact hrun i hi (by omega) }

theorem Keeps.advance (ctx : Reassembly) (n : Nat) : Keeps ctx { ctx with readOffset := ctx.readOffset + n } :=
  ⟨rfl, rfl, Nat.le_add_right _ _, Finset.Subset.refl _, fun _ _ => rfl⟩

end Steps

/-! ## The two histories -/

/-- The window accounts for everything accepted and everything produced so far. -/
structure Account (answers : List Answer) (ctx : Reassembly) : Prop extends Sane ctx where
  accepted : acceptedTotal answers = ctx.received.card
  stream : stream answers = ctx.data.take ctx.readOffset

section Histories
variable {answers : List Answer} {ctx : Reassembly}

theorem Account.step (h : Account answers ctx) (call : Call) :
    Account (answers ++ [reassemblyMachine.out ctx call]) (reassemblyMachine.next ctx call) ∧
      Keeps ctx (reassemblyMachine.next ctx call) := by
  cases call with
  | push seq input =>
    rw [next_push, out_push]
    rcases reassemblyPush_cases h.valid seq input with ⟨status, hpush, -⟩ | ⟨hfit, hno, hpush⟩
    · rw [hpush]
      refine ⟨{ h with accepted := ?_, stream := ?_ }, Keeps.refl ctx⟩
      · rw [acceptedTotal_append, h.accepted]
        rfl
      · rw [stream_append, h.stream]
        exact List.append_nil _
    · have hkeep := Keeps.write hfit hno
      rw [hpush]
      refine ⟨{ h.toSane.write hfit with accepted := ?_, stream := ?_ }, hkeep⟩
      · rw [acceptedTotal_append, h.accepted, received_write hfit, ← Finset.sdiff_union_self_eq_union,
          Finset.card_union_of_disjoint Finset.sdiff_disjoint, ← absent_eq_sdiff, Nat.add_comm]
        rfl
      · rw [stream_append, h.stream, ← hkeep.take_eq h.toSane]
        exact List.append_nil _
  | read outCapacity =>
    rw [next_read, out_read]
    rcases reassemblyRead_cases ctx outCapacity with ⟨status, hread⟩ | hread
    · rw [hread]
      refine ⟨{ h with accepted := ?_, stream := ?_ }, Keeps.refl ctx⟩
      · rw [acceptedTotal_append, h.accepted]
        rfl
      · rw [stream_append, h.stream]
        exact List.append_nil _
    · rw [hread]
      refine ⟨{ h.toSane.advance with accepted := ?_, stream := ?_ }, Keeps.advance ctx _⟩
      · rw [acceptedTotal_append, h.accepted]
        rfl
      · rw [stream_append, h.stream, List.take_add]
        simp [L07.stream, Answer.produced, slice]

theorem account_init {initialSeq : UInt32} {data : Bytes} (h : reassemblyInit initialSeq data = .ok ctx) :
    Account [] ctx := by
  obtain ⟨hsane, hnone, hzero, -⟩ := sane_init h
  refine { hsane with accepted := ?_, stream := ?_ }
  · rw [hnone]
    rfl
  · rw [hzero]
    rfl

theorem account_run (h : Account [] ctx) (calls : List Call) :
    Account (reassemblyMachine.answers ctx calls) (reassemblyMachine.run ctx calls) :=
  reassemblyMachine.trace_invariant (fun _ _ call hs => (hs.step call).1) h calls

theorem Account.keeps_run (h : Account answers ctx) (more : List Call) :
    Sane (reassemblyMachine.run ctx more) ∧ Keeps ctx (reassemblyMachine.run ctx more) := by
  have hstep : ∀ s call, (∃ os, Account os s ∧ Keeps ctx s) →
      ∃ os, Account os (reassemblyMachine.next s call) ∧ Keeps ctx (reassemblyMachine.next s call) := by
    rintro s call ⟨os, hs, hkeep⟩
    exact ⟨_, (hs.step call).1, hkeep.trans (hs.step call).2⟩
  obtain ⟨os, hs, hkeep⟩ := reassemblyMachine.run_invariant hstep ⟨answers, h, Keeps.refl ctx⟩ more
  exact ⟨hs.toSane, hkeep⟩

/-- **Integrity against inconsistent senders.** In every state of every run of pushes and reads on a freshly
initialized window: bitmap bytes are 0 or 1; the cursor is inside the window and everything before it is
present; the accepted counts add up to the number of present positions; the bytes of all reads are the data up
to the cursor; present positions and their bytes stay in every later state; so a segment that is accepted later
agrees with every byte already delivered. -/
theorem reassembly_integrity {initialSeq : UInt32} {data : Bytes}
    (h : reassemblyInit initialSeq data = .ok ctx) (calls : List Call) :
    let s := reassemblyMachine.run ctx calls
    let answers := reassemblyMachine.answers ctx calls
    (∀ bit ∈ s.present, bit = 0 ∨ bit = 1) ∧
      s.readOffset ≤ s.capacity ∧
      (∀ i < s.readOffset, s.present.getD i 0 ≠ 0) ∧
      acceptedTotal answers = ((Finset.range s.capacity).filter fun i => s.present.getD i 0 ≠ 0).card ∧
      stream answers = s.data.take s.readOffset ∧
      (∀ more, ∀ i, s.present.getD i 0 ≠ 0 →
        (reassemblyMachine.run s more).present.getD i 0 ≠ 0 ∧
          (reassemblyMachine.run s more).data.getD i 0 = s.data.getD i 0) ∧
      ∀ more seq input, (reassemblyPush (reassemblyMachine.run s more) seq input).status = .ok →
        ∀ j < input.length, (seq - initialSeq).toNat + j < s.readOffset →
          input.getD j 0 = (stream answers).getD ((seq - initialSeq).toNat + j) 0 := by
  intro s answers
  have hs : Account answers s := account_run (account_init h) calls
  have hinit : s.initialSeq = initialSeq := by
    rw [((account_init h).keeps_run calls).2.initialSeq, (sane_init h).2.2.2]
  refine ⟨hs.bits, hs.cursor, fun i hi => mem_received.mp (hs.delivered i hi), hs.accepted, hs.stream, ?_, ?_⟩
  · intro more i hi
    obtain ⟨-, hkeep⟩ := hs.keeps_run more
    rw [← mem_received] at hi ⊢
    exact ⟨hkeep.received hi, hkeep.data i hi⟩
  · intro more seq input hok j hj hlt
    obtain ⟨hsane, hkeep⟩ := hs.keeps_run more
    rcases reassemblyPush_cases hsane.valid seq input with ⟨status, hpush, hnil⟩ | ⟨-, hno, -⟩
    · rw [hpush] at hok
      rw [hnil hok] at hj
      exact absurd hj (Nat.not_lt_zero j)
    · rw [hkeep.initialSeq, hinit] at hno
      have hmem := hs.delivered _ hlt
      rw [← getD_of_not_conflict hno hj (hkeep.received hmem), hkeep.data _ hmem, hs.stream,
        List.getD_eq_getElem?_getD, List.getD_eq_getElem?_getD, List.getElem?_take_of_lt hlt]

theorem reassembly_integrity_conflict :
    let ctx : Reassembly := ⟨7, [9, 9, 9, 9], [0, 0, 0, 0], 4, 0, rfl, rfl⟩
    let calls : List Call := [.push 7 [1], .push 9 [3], .read 8, .push 7 [1, 2, 3], .push 7 [5, 2]]
    acceptedTotal (reassemblyMachine.answers ctx calls) = 3 ∧
      stream (reassemblyMachine.answers ctx calls) = [1] := by
  have hinit : reassemblyInit 7 [9, 9, 9, 9] = .ok ⟨7, [9, 9, 9, 9], [0, 0, 0, 0], 4, 0, rfl, rfl⟩ := rfl
  obtain ⟨-, -, -, hsum, hstream, -⟩ := reassembly_integrity hinit
    [.push 7 [1], .push 9 [3], .read 8, .push 7 [1, 2, 3], .push 7 [5, 2]]
  exact ⟨hsum.trans (by decide +kernel), hstream.trans (by decide +kernel)⟩

end Histories

end TcpipCourse.L07
