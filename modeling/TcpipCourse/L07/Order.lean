import TcpipCourse.Lib.Machine
import TcpipCourse.L07.Window

/-!
# Lesson 07: reassembly does not depend on the order of arrival

* `Window`, `Refines` : the abstract window (a set of positions and a cursor) of a reference stream, and
  the simulation: a push of bytes of the stream adds their positions (`Refines.push`), a read moves the
  cursor to the first gap (`Refines.read`);
* `reassemblyMachine` : the window as a machine; `Op` : pushes of parts of a stream, and reads;
* `tracks_run` : what any run of `Op`s has accepted and delivered;
* `reassembly_order_independent` : only the set of covered positions matters.
-/

namespace TcpipCourse.L07
open Lib

/-! ## The simulation -/

/-- The abstract window: the positions received so far and the number of positions delivered. -/
structure Window where
  present : Finset Nat
  cursor : Nat

/-- `ctx` holds the bytes of `S` at the positions of `w` and has delivered the first `w.cursor` of them. -/
structure Refines (S : Bytes) (initialSeq : UInt32) (ctx : Reassembly) (w : Window) : Prop where
  initialSeq : ctx.initialSeq = initialSeq
  capacity : ctx.capacity = S.length
  bound : S.length ≤ uint32Max
  inside : w.present ⊆ Finset.range S.length
  bitmap : ∀ i < S.length, ctx.present.getD i 0 = if i ∈ w.present then 1 else 0
  data : ∀ i ∈ w.present, ctx.data.getD i 0 = S.getD i 0
  cursor : ctx.readOffset = w.cursor
  delivered : ∀ i < w.cursor, i ∈ w.present

section Simulation
variable {S : Bytes} {initialSeq : UInt32} {ctx : Reassembly} {w : Window}

theorem refines_init {data : Bytes} (hlen : data.length = S.length)
    (h : reassemblyInit initialSeq data = .ok ctx) : Refines S initialSeq ctx ⟨∅, 0⟩ := by
  unfold reassemblyInit at h
  split at h
  · cases h
  · cases h
    exact
      { initialSeq := rfl
        capacity := hlen
        bound := by omega
        inside := Finset.empty_subset _
        bitmap := fun i hi => by
          rw [List.getD_eq_getElem _ _ (by simpa [hlen] using hi), List.getElem_replicate]
          simp
        data := fun i hi => absurd hi (Finset.notMem_empty i)
        cursor := rfl
        delivered := fun i hi => absurd hi (Nat.not_lt_zero i) }

theorem Refines.cursor_le (h : Refines S initialSeq ctx w) : w.cursor ≤ firstGap w.present :=
  le_firstGap h.delivered

theorem Refines.valid (h : Refines S initialSeq ctx w) : reassemblyIsValid ctx = true := by
  have h1 := h.cursor_le
  have h2 := firstGap_le h.inside
  have h3 := h.bound
  simp only [reassemblyIsValid, h.capacity, h.cursor, Bool.and_eq_true, decide_eq_true_eq]
  omega

/-- The offset of a sequence number counted from `initialSeq`, wrapping past `2^32`. -/
theorem toNat_seq_sub (initialSeq : UInt32) {o : Nat} (ho : o ≤ uint32Max) :
    (initialSeq + UInt32.ofNat o - initialSeq).toNat = o := by
  rw [UInt32.add_comm, UInt32.add_sub_cancel, UInt32.toNat_ofNat_of_lt']
  have : uint32Max = 4294967295 := rfl
  have : UInt32.size = 4294967296 := rfl
  omega

/-- The new positions of a stretch are those that the window lacks. -/
theorem Refines.absent_eq (h : Refines S initialSeq ctx w) {o n : Nat} (hfit : o + n ≤ S.length) :
    absent ctx o n = stretch o n \ w.present := by
  ext i
  rw [absent, Finset.mem_filter, Finset.mem_sdiff, and_congr_right_iff]
  intro hi
  rw [mem_stretch] at hi
  rw [h.bitmap i (by omega)]
  split <;> simp_all

/-- A byte already present is the byte of `S` at its position, which is also what the input carries. -/
theorem Refines.not_conflict (h : Refines S initialSeq ctx w) {o n : Nat} (hfit : o + n ≤ S.length) :
    ¬ Conflict ctx o (slice S o n) := by
  rintro ⟨j, hj, hp, hd⟩
  rw [length_slice hfit] at hj
  rw [getD_slice hj] at hd
  have hmem : o + j ∈ w.present := by
    by_contra hno
    rw [h.bitmap (o + j) (by omega), if_neg hno] at hp
    exact hp rfl
  exact hd (h.data _ hmem)

/-- Storing bytes of `S` at their positions adds these positions to the window. -/
theorem Refines.write (h : Refines S initialSeq ctx w) {o n : Nat} (hfit : o + n ≤ S.length) :
    Refines S initialSeq (ctx.write o (slice S o n)) ⟨stretch o n ∪ w.present, w.cursor⟩ := by
  have hlen : (slice S o n).length = n := length_slice hfit
  have hw : o + (slice S o n).length ≤ ctx.capacity := by rw [hlen, h.capacity]; exact hfit
  exact
    { initialSeq := h.initialSeq
      capacity := h.capacity
      bound := h.bound
      inside := Finset.union_subset (fun i hi => by
        rw [mem_stretch] at hi
        rw [Finset.mem_range]
        omega) h.inside
      bitmap := fun i hi => by
        rw [getD_present_write hw, hlen, h.bitmap i hi]
        by_cases h1 : i ∈ stretch o n <;> simp [h1]
      data := fun i hi => by
        rw [getD_data_write hw, hlen]
        by_cases h1 : i ∈ stretch o n
        · rw [if_pos h1]
          rw [mem_stretch] at h1
          rw [getD_slice (by omega), show o + (i - o) = i by omega]
        · rw [if_neg h1]
          exact h.data i ((Finset.mem_union.mp hi).resolve_left h1)
      cursor := h.cursor
      delivered := fun i hi => Finset.mem_union_right _ (h.delivered i hi) }

/-- A push of `n` bytes of `S` from position `o` succeeds, counts the new ones and adds their positions. -/
theorem Refines.push (h : Refines S initialSeq ctx w) {o n : Nat} (hfit : o + n ≤ S.length) :
    ∃ ctx', reassemblyPush ctx (initialSeq + UInt32.ofNat o) (slice S o n) =
        ⟨.ok, (stretch o n \ w.present).card, ctx'⟩ ∧
      Refines S initialSeq ctx' ⟨stretch o n ∪ w.present, w.cursor⟩ := by
  have hlen : (slice S o n).length = n := length_slice hfit
  rcases Nat.eq_zero_or_pos n with rfl | hn
  · have hseg : stretch o 0 = ∅ := by simp [stretch]
    refine ⟨ctx, ?_, ?_⟩
    · simp [reassemblyPush, h.valid, hlen, hseg]
    · simpa [hseg] using h
  · have hoff : (initialSeq + UInt32.ofNat o - ctx.initialSeq).toNat = o := by
      rw [h.initialSeq]
      exact toNat_seq_sub initialSeq (by have := h.bound; omega)
    refine ⟨ctx.write o (slice S o n), ?_, h.write hfit⟩
    rw [reassemblyPush_eq h.valid _ (by omega)]
    simp only [hoff, hlen, h.capacity, h.not_conflict hfit, h.absent_eq hfit, if_false]
    rw [if_neg (by omega)]

theorem Refines.available (h : Refines S initialSeq ctx w) :
    ctx.available = firstGap w.present - w.cursor := by
  have hcur := h.cursor_le
  have hgap := firstGap_le h.inside
  rw [Reassembly.available, h.cursor]
  refine length_takeWhile_drop 0 (fun i _ h2 => ?_) ?_
  · rw [h.bitmap i (by omega), if_pos (mem_of_lt_firstGap (by omega))]
    decide
  · rw [ctx.present_length, h.capacity, show w.cursor + (firstGap w.present - w.cursor) = firstGap w.present by
      omega]
    rcases Nat.lt_or_eq_of_le hgap with hlt | heq
    · rw [h.bitmap _ hlt, if_neg (firstGap_notMem _)]
      exact .inr ⟨hlt, by decide⟩
    · exact .inl heq

/-- A read delivers the stream up to the first gap when that fits, and nothing otherwise. -/
theorem Refines.read (h : Refines S initialSeq ctx w) (outCapacity : Nat) :
    (firstGap w.present - w.cursor > outCapacity ∧ reassemblyRead ctx outCapacity = ⟨.truncated, [], ctx⟩) ∨
    (firstGap w.present - w.cursor ≤ outCapacity ∧ ∃ ctx', reassemblyRead ctx outCapacity =
        ⟨.ok, slice S w.cursor (firstGap w.present - w.cursor), ctx'⟩ ∧
      Refines S initialSeq ctx' ⟨w.present, firstGap w.present⟩) := by
  have hcur := h.cursor_le
  have hgap := firstGap_le h.inside
  simp only [reassemblyRead, h.valid, Bool.not_true, Bool.false_eq_true, if_false, h.available]
  by_cases hfit : firstGap w.present - w.cursor > outCapacity
  · exact .inl ⟨hfit, by rw [if_pos hfit]⟩
  · have hbytes : slice ctx.data w.cursor (firstGap w.present - w.cursor) =
        slice S w.cursor (firstGap w.present - w.cursor) := by
      refine slice_congr 0 (by rw [ctx.data_length, h.capacity]; omega) (by omega) fun i _ h2 => ?_
      exact h.data i (mem_of_lt_firstGap (by omega))
    refine .inr ⟨by omega, _, by rw [if_neg hfit, h.cursor, hbytes], ?_⟩
    exact { h with
      cursor := by dsimp only; omega
      delivered := fun i hi => mem_of_lt_firstGap hi }

end Simulation

/-! ## Runs of pushes and reads -/

/-- One call on a window. -/
inductive Call where
  | push (seq : UInt32) (input : Bytes)
  | read (outCapacity : Nat)
  deriving DecidableEq

/-- The status of a call with `*accepted`, or with the bytes it produced. -/
inductive Answer where
  | pushed (status : Status) (accepted : Nat)
  | read (status : Status) (produced : Bytes)
  deriving DecidableEq

def Answer.accepted : Answer → Nat
  | pushed _ accepted => accepted
  | read _ _ => 0

def Answer.produced : Answer → Bytes
  | pushed _ _ => []
  | read _ produced => produced

def reassemblyStep (ctx : Reassembly) : Call → Reassembly × Answer
  | .push seq input =>
    let r := reassemblyPush ctx seq input
    (r.ctx, .pushed r.status r.accepted)
  | .read outCapacity =>
    let r := reassemblyRead ctx outCapacity
    (r.ctx, .read r.status r.produced)

def reassemblyMachine : Machine Reassembly Call Answer := ⟨reassemblyStep⟩

theorem next_push (ctx : Reassembly) (seq : UInt32) (input : Bytes) :
    reassemblyMachine.next ctx (.push seq input) = (reassemblyPush ctx seq input).ctx := rfl

theorem out_push (ctx : Reassembly) (seq : UInt32) (input : Bytes) :
    reassemblyMachine.out ctx (.push seq input) =
      .pushed (reassemblyPush ctx seq input).status (reassemblyPush ctx seq input).accepted := rfl

theorem next_read (ctx : Reassembly) (outCapacity : Nat) :
    reassemblyMachine.next ctx (.read outCapacity) = (reassemblyRead ctx outCapacity).ctx := rfl

theorem out_read (ctx : Reassembly) (outCapacity : Nat) :
    reassemblyMachine.out ctx (.read outCapacity) =
      .read (reassemblyRead ctx outCapacity).status (reassemblyRead ctx outCapacity).produced := rfl

/-- A push of the `n` bytes of a stream from position `o`, or a read. -/
inductive Op where
  | push (o n : Nat)
  | read (outCapacity : Nat)
  deriving DecidableEq

/-- The push stays inside a stream of `capacity` bytes. -/
def Op.Fits (capacity : Nat) : Op → Prop
  | push o n => o + n ≤ capacity
  | read _ => True

instance (capacity : Nat) : ∀ op : Op, Decidable (op.Fits capacity)
  | .push o n => inferInstanceAs (Decidable (o + n ≤ capacity))
  | .read _ => inferInstanceAs (Decidable True)

def Op.call (S : Bytes) (initialSeq : UInt32) : Op → Call
  | push o n => .push (initialSeq + UInt32.ofNat o) (slice S o n)
  | read outCapacity => .read outCapacity

def Op.segment? : Op → Option (Nat × Nat)
  | push o n => some (o, n)
  | read _ => none

/-- The segments pushed, in order. -/
def segments (ops : List Op) : List (Nat × Nat) := ops.filterMap Op.segment?

def acceptedTotal (answers : List Answer) : Nat := (answers.map Answer.accepted).sum

def stream (answers : List Answer) : Bytes := answers.flatMap Answer.produced

theorem acceptedTotal_append (as bs : List Answer) :
    acceptedTotal (as ++ bs) = acceptedTotal as + acceptedTotal bs := by simp [acceptedTotal]

theorem stream_append (as bs : List Answer) : stream (as ++ bs) = stream as ++ stream bs := by
  simp [stream]

/-- What a run of operations on the stream `S` has done so far. -/
structure Tracks (S : Bytes) (initialSeq : UInt32) (ops : List Op) (ctx : Reassembly)
    (answers : List Answer) (w : Window) : Prop where
  refines : Refines S initialSeq ctx w
  present : w.present = covered (segments ops)
  pushed : ∀ status accepted, .pushed status accepted ∈ answers → status = .ok
  accepted : acceptedTotal answers = (covered (segments ops)).card
  stream : stream answers = S.take w.cursor

section Runs
variable {S : Bytes} {initialSeq : UInt32}

theorem card_covered_snoc (ss : List (Nat × Nat)) (s : Nat × Nat) :
    (covered (ss ++ [s])).card = (covered ss).card + (Lib.stretch s.1 s.2 \ covered ss).card := by
  rw [covered_append_singleton, ← Finset.sdiff_union_self_eq_union,
    Finset.card_union_of_disjoint Finset.sdiff_disjoint, Nat.add_comm]

theorem Tracks.step {ops : List Op} {ctx : Reassembly} {answers : List Answer} {w : Window}
    (h : Tracks S initialSeq ops ctx answers w) {op : Op} (hop : op.Fits S.length) :
    ∃ w', Tracks S initialSeq (ops ++ [op]) (reassemblyMachine.next ctx (op.call S initialSeq))
      (answers ++ [reassemblyMachine.out ctx (op.call S initialSeq)]) w' := by
  cases op with
  | push o n =>
    obtain ⟨ctx', hpush, href⟩ := h.refines.push hop
    have hsegs : segments (ops ++ [.push o n]) = segments ops ++ [(o, n)] := by
      simp [segments, Op.segment?]
    rw [Op.call, next_push, out_push, hpush]
    exact ⟨_,
      { refines := href
        present := by rw [hsegs, covered_append_singleton, h.present]
        pushed := fun status accepted hmem => by
          rcases List.mem_append.mp hmem with hmem | hmem
          · exact h.pushed status accepted hmem
          · cases List.mem_singleton.mp hmem
            rfl
        accepted := by
          rw [acceptedTotal_append, h.accepted, hsegs, card_covered_snoc, h.present]
          simp [acceptedTotal, Answer.accepted]
        stream := by
          rw [stream_append, h.stream]
          simp [L07.stream, Answer.produced] }⟩
  | read outCapacity =>
    have hsegs : segments (ops ++ [.read outCapacity]) = segments ops := by
      simp [segments, Op.segment?]
    have hpushed : ∀ status produced, ∀ st accepted,
        Answer.pushed st accepted ∈ answers ++ [.read status produced] → st = .ok := by
      intro status produced st accepted hmem
      rcases List.mem_append.mp hmem with hmem | hmem
      · exact h.pushed st accepted hmem
      · cases List.mem_singleton.mp hmem
    have haccepted : ∀ status produced,
        acceptedTotal (answers ++ [.read status produced]) = (covered (segments ops)).card := by
      intro status produced
      rw [acceptedTotal_append, h.accepted]
      simp [acceptedTotal, Answer.accepted]
    rcases h.refines.read outCapacity with ⟨-, hread⟩ | ⟨-, ctx', hread, href⟩
    · rw [Op.call, next_read, out_read, hread]
      exact ⟨w, h.refines, by rw [hsegs, h.present], hpushed _ _, by rw [haccepted, hsegs], by
        rw [stream_append, h.stream]; simp [L07.stream, Answer.produced]⟩
    · have hcur := h.refines.cursor_le
      rw [Op.call, next_read, out_read, hread]
      refine ⟨_, href, by rw [hsegs, h.present], hpushed _ _, by rw [haccepted, hsegs], ?_⟩
      rw [stream_append, h.stream]
      simp only [L07.stream, Answer.produced, List.flatMap_cons, List.flatMap_nil, List.append_nil, slice]
      rw [← List.take_add, show w.cursor + (firstGap w.present - w.cursor) = firstGap w.present by omega]

theorem tracks_run {data : Bytes} {ctx : Reassembly} (hlen : data.length = S.length)
    (hinit : reassemblyInit initialSeq data = .ok ctx) (ops : List Op) (hops : ∀ op ∈ ops, op.Fits S.length) :
    ∃ w, Tracks S initialSeq ops (reassemblyMachine.run ctx (ops.map (Op.call S initialSeq)))
      (reassemblyMachine.answers ctx (ops.map (Op.call S initialSeq))) w := by
  induction ops using List.reverseRecOn with
  | nil =>
    exact ⟨_, refines_init hlen hinit, rfl, by simp [Machine.answers], rfl, by simp [L07.stream, Machine.answers]⟩
  | append_singleton ops op ih =>
    obtain ⟨w, hw⟩ := ih fun o ho => hops o (by simp [ho])
    rw [List.map_append, reassemblyMachine.run_append, reassemblyMachine.answers_append]
    exact hw.step (hops op (by simp))

/-- One more read, of any sufficient capacity, completes the delivered stream up to the first gap. -/
theorem Tracks.final_read {ops : List Op} {ctx : Reassembly} {answers : List Answer} {w : Window}
    (h : Tracks S initialSeq ops ctx answers w) {outCapacity : Nat} (hcap : ctx.available ≤ outCapacity) :
    L07.stream (answers ++ [reassemblyMachine.out ctx (.read outCapacity)]) =
      S.take (firstGap (covered (segments ops))) := by
  rw [h.refines.available] at hcap
  rcases h.refines.read outCapacity with ⟨hgt, -⟩ | ⟨-, ctx', hread, -⟩
  · omega
  · have hcur := h.refines.cursor_le
    rw [stream_append, h.stream, out_read, hread, ← h.present]
    simp only [L07.stream, Answer.produced, List.flatMap_cons, List.flatMap_nil, List.append_nil, slice]
    rw [← List.take_add, show w.cursor + (firstGap w.present - w.cursor) = firstGap w.present by omega]

/-- Two windows over the same positions have the same bitmap and the same data at its positions. -/
theorem Refines.agree {ctx ctx' : Reassembly} {w w' : Window} (h : Refines S initialSeq ctx w)
    (h' : Refines S initialSeq ctx' w') (hw : w'.present = w.present) :
    ctx'.present = ctx.present ∧
      ∀ i, ctx.present.getD i 0 ≠ 0 → ctx'.data.getD i 0 = ctx.data.getD i 0 := by
  refine ⟨List.ext_getElem ?_ fun i h1 h2 => ?_, fun i hi => ?_⟩
  · rw [ctx.present_length, ctx'.present_length, h.capacity, h'.capacity]
  · rw [ctx'.present_length, h'.capacity] at h1
    rw [← List.getD_eq_getElem _ 0, ← List.getD_eq_getElem _ 0, h.bitmap i h1, h'.bitmap i h1, hw]
  · have hlt : i < S.length := by
      by_contra hge
      rw [List.getD_eq_default _ _ (by rw [ctx.present_length, h.capacity]; omega)] at hi
      exact hi rfl
    have hmem : i ∈ w.present := by
      by_contra hno
      rw [h.bitmap i hlt, if_neg hno] at hi
      exact hi rfl
    rw [h.data i hmem, h'.data i (hw ▸ hmem)]

/-- **Order independence.** On a freshly initialized window, any pushes of parts of a stream `S`, in any
order, with any overlaps and duplicates and any reads in between, all succeed; the accepted counts add up
to the number of covered positions; the bytes read, with one sufficient read at the end, are the longest
covered prefix of `S`; and rearranged pushes give the same bitmap, the same data at its positions and the
same stream. -/
theorem reassembly_order_independent {data : Bytes} {ctx : Reassembly} (hlen : data.length = S.length)
    (hinit : reassemblyInit initialSeq data = .ok ctx) (ops : List Op) (hops : ∀ op ∈ ops, op.Fits S.length) :
    let run := fun os : List Op => reassemblyMachine.run ctx (os.map (Op.call S initialSeq))
    let answers := fun os : List Op => reassemblyMachine.answers ctx (os.map (Op.call S initialSeq))
    let finalStream := fun (os : List Op) (outCapacity : Nat) =>
      stream (answers os ++ [reassemblyMachine.out (run os) (.read outCapacity)])
    (∀ status accepted, .pushed status accepted ∈ answers ops → status = .ok) ∧
      acceptedTotal (answers ops) = (covered (segments ops)).card ∧
      (∀ outCapacity, (run ops).available ≤ outCapacity →
        finalStream ops outCapacity = S.take (firstGap (covered (segments ops)))) ∧
      ∀ ops' : List Op, (∀ op ∈ ops', op.Fits S.length) → (segments ops').Perm (segments ops) →
        (run ops').present = (run ops).present ∧
        (∀ i, (run ops).present.getD i 0 ≠ 0 → (run ops').data.getD i 0 = (run ops).data.getD i 0) ∧
        ∀ outCapacity outCapacity', (run ops).available ≤ outCapacity →
          (run ops').available ≤ outCapacity' →
          finalStream ops' outCapacity' = finalStream ops outCapacity := by
  intro run answers finalStream
  obtain ⟨w, hw⟩ := tracks_run hlen hinit ops hops
  refine ⟨hw.pushed, hw.accepted, fun outCapacity hcap => hw.final_read hcap, fun ops' hops' hperm => ?_⟩
  obtain ⟨w', hw'⟩ := tracks_run hlen hinit ops' hops'
  have hcov : covered (segments ops') = covered (segments ops) := covered_perm hperm
  have hpresent : w'.present = w.present := by rw [hw'.present, hw.present, hcov]
  obtain ⟨hbits, hdata⟩ := hw.refines.agree hw'.refines hpresent
  refine ⟨hbits, hdata, fun outCapacity outCapacity' hcap hcap' => ?_⟩
  exact (hw'.final_read hcap').trans ((congrArg (fun s => S.take (firstGap s)) hcov).trans
    (hw.final_read hcap).symm)

end Runs

/-- Four bytes whose sequence numbers wrap past `2^32`, the tail pushed before the head. -/
def wrapOps : List Op := [.push 2 2, .read 8, .push 0 3]

theorem reassembly_order_independent_wrap :
    let ctx : Reassembly := ⟨0xfffffffe, [9, 9, 9, 9], [0, 0, 0, 0], 4, 0, rfl, rfl⟩
    let calls := wrapOps.map (Op.call [97, 98, 99, 100] 0xfffffffe)
    acceptedTotal (reassemblyMachine.answers ctx calls) = 4 ∧
      stream (reassemblyMachine.answers ctx calls ++
        [reassemblyMachine.out (reassemblyMachine.run ctx calls) (.read 8)]) = [97, 98, 99, 100] := by
  have hinit : reassemblyInit 0xfffffffe [9, 9, 9, 9] =
      .ok ⟨0xfffffffe, [9, 9, 9, 9], [0, 0, 0, 0], 4, 0, rfl, rfl⟩ := rfl
  have hlen : [(9 : UInt8), 9, 9, 9].length = [(97 : UInt8), 98, 99, 100].length := rfl
  obtain ⟨-, hsum, hstream, -⟩ := reassembly_order_independent hlen hinit wrapOps (by decide)
  refine ⟨hsum.trans (by decide), (hstream 8 (by decide +kernel)).trans ?_⟩
  rw [show firstGap (covered (segments wrapOps)) = 4 from firstGap_eq (by decide) (by decide)]
  rfl

end TcpipCourse.L07
