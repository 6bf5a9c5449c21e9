import TcpipCourse.L06.Serial
import TcpipCourse.L07.Outcome

/-!
# Lesson 07: segments by their sequence numbers

The window counts offsets from its initial sequence number; lesson 06 compares sequence numbers. In a window smaller
than half the number space the two tell the same.

* `seqAt_offset` : a sequence number is that of its offset;
* `Sane.read_of_old` : a segment in front of the cursor changes no read;
* `Sane.read_of_next` : a segment across the cursor is read next;
* `reassembly_serial` : the main result.
-/

namespace TcpipCourse.L07
open Lib
open L06 (seqAt seqBefore seqDistance seqBefore_seqAt seqDistance_seqAt)

theorem seqAt_offset (initialSeq seq : UInt32) : seqAt initialSeq (seq - initialSeq).toNat = seq := by
  rw [seqAt, UInt32.ofNat_toNat, UInt32.add_comm, UInt32.sub_add_cancel]

theorem seqAt_add (initialSeq : UInt32) (i n : Nat) : seqAt (seqAt initialSeq i) n = seqAt initialSeq (i + n) := by
  rw [seqAt, seqAt, seqAt, UInt32.add_assoc, UInt32.ofNat_add]

section Window
variable {ctx : Reassembly} {o : Nat} {input : Bytes}

/-- A segment in front of the cursor brings nothing, and every read answers as before. -/
theorem Sane.read_of_old (h : Sane ctx) (hno : ¬ Conflict ctx o input) (hold : o + input.length ≤ ctx.readOffset) :
    (absent ctx o input.length).card = 0 ∧
      ∀ outCapacity, (reassemblyRead (ctx.write o input) outCapacity).status = (reassemblyRead ctx outCapacity).status ∧
        (reassemblyRead (ctx.write o input) outCapacity).produced = (reassemblyRead ctx outCapacity).produced := by
  have hcursor := h.cursor
  have hfit : o + input.length ≤ ctx.capacity := by omega
  have hwithin : stretch o input.length ⊆ ctx.received := by
    intro i hi
    rw [mem_stretch] at hi
    exact h.delivered i (by omega)
  have hreceived : (ctx.write o input).received = ctx.received := by
    rw [received_write hfit, Finset.union_eq_right.mpr hwithin]
  have havailable : (ctx.write o input).available = ctx.available := by
    have hrun := @maximalRun_available (ctx.write o input) hcursor
    have hrun' := maximalRun_available hcursor
    unfold MaximalRun at hrun
    rw [hreceived] at hrun
    exact @MaximalRun.unique ctx _ _ hrun hrun'
  have hdata : slice (ctx.write o input).data ctx.readOffset ctx.available =
      slice ctx.data ctx.readOffset ctx.available := by
    obtain ⟨hle, hrun⟩ := available_spec hcursor
    refine slice_congr 0 ?_ ?_ fun i hlow hhigh => (Keeps.write hfit hno).data i (hrun i hhigh hlow)
    · rw [(ctx.write o input).data_length]
      exact hle
    · rw [ctx.data_length]
      exact hle
  constructor
  · rw [absent_eq_sdiff, Finset.sdiff_eq_empty_iff_subset.mpr hwithin, Finset.card_empty]
  · intro outCapacity
    rw [reassemblyRead_eq (h.write hfit).valid, reassemblyRead_eq h.valid, havailable]
    split
    · exact ⟨rfl, rfl⟩
    · exact ⟨rfl, hdata⟩

/-- A segment across the cursor is what the next read starts with. -/
theorem Sane.read_of_next (h : Sane ctx) (hfit : o + input.length ≤ ctx.capacity) (hstart : o ≤ ctx.readOffset)
    (hend : ctx.readOffset < o + input.length) {outCapacity : Nat}
    (hok : (reassemblyRead (ctx.write o input) outCapacity).status = .ok) :
    input.drop (ctx.readOffset - o) <+: (reassemblyRead (ctx.write o input) outCapacity).produced := by
  have hcursor : (ctx.write o input).readOffset = ctx.readOffset := rfl
  have hsane := h.write hfit
  have hrun := maximalRun_available hsane.cursor
  have hlong : o + input.length ≤ ctx.readOffset + (ctx.write o input).available := by
    by_contra hshort
    apply hrun.2
    rw [received_write hfit, hcursor]
    refine Finset.mem_union_left _ (mem_stretch.mpr ?_)
    omega
  have hback : input.drop (ctx.readOffset - o) =
      slice (ctx.write o input).data ctx.readOffset (o + input.length - ctx.readOffset) := by
    have hwritten := @slice_overwrite _ ctx.data input o (by rw [ctx.data_length]; exact hfit)
    have hcut := drop_slice (overwrite ctx.data o input) o (ctx.readOffset - o) input.length
    rw [hwritten] at hcut
    rw [hcut]
    show slice (overwrite ctx.data o input) (o + (ctx.readOffset - o)) (input.length - (ctx.readOffset - o)) =
      slice (overwrite ctx.data o input) ctx.readOffset (o + input.length - ctx.readOffset)
    congr 1 <;> omega
  rw [reassemblyRead_eq hsane.valid] at hok ⊢
  split at hok
  · cases hok
  · next hroom =>
    rw [if_neg hroom, hback, ← take_slice _ (show o + input.length - ctx.readOffset ≤ (ctx.write o input).available by
      omega)]
    exact List.take_prefix _ _

end Window

/-- What the cursor of the reader expects next. -/
def Reassembly.nextSeq (ctx : Reassembly) : UInt32 := seqAt ctx.initialSeq ctx.readOffset

theorem push_ok {ctx : Reassembly} (h : Sane ctx) {seq : UInt32} {input : Bytes} (hne : input ≠ [])
    (hok : (reassemblyPush ctx seq input).status = .ok) :
    (seq - ctx.initialSeq).toNat + input.length ≤ ctx.capacity ∧
      ¬ Conflict ctx (seq - ctx.initialSeq).toNat input ∧
      reassemblyPush ctx seq input = ⟨.ok, (absent ctx (seq - ctx.initialSeq).toNat input.length).card,
        ctx.write (seq - ctx.initialSeq).toNat input⟩ := by
  rcases reassemblyPush_cases h.valid seq input with ⟨status, hpush, hnil⟩ | hpush
  · rw [hpush] at hok
    exact absurd (hnil hok) hne
  · exact hpush

/-- **Main result.** In every state of every run on a window smaller than half the number space, a segment is accepted
that ends before the next expected number only as a duplicate, which no read can tell; one that starts no later than
this number and ends behind it is what the next read starts with, from that number on; and of two segments accepted at
any two times of the run, the one whose number is before the other's is stored at the lower offset. -/
theorem reassembly_serial {initialSeq : UInt32} {data : Bytes} {ctx : Reassembly}
    (hinit : reassemblyInit initialSeq data = .ok ctx) (hsmall : data.length < 2147483648) (calls : List Call)
    {seq : UInt32} {input : Bytes} (hne : input ≠ [])
    (hok : (reassemblyPush (reassemblyMachine.run ctx calls) seq input).status = .ok) :
    let now := reassemblyMachine.run ctx calls
    let reply := reassemblyPush now seq input
    (seqBefore now.nextSeq (seqAt seq input.length) = false → reply.accepted = 0 ∧
      ∀ outCapacity, (reassemblyRead reply.ctx outCapacity).status = (reassemblyRead now outCapacity).status ∧
        (reassemblyRead reply.ctx outCapacity).produced = (reassemblyRead now outCapacity).produced) ∧
    (seqBefore now.nextSeq seq = false → seqBefore now.nextSeq (seqAt seq input.length) = true →
      ∀ outCapacity, (reassemblyRead reply.ctx outCapacity).status = .ok →
        input.drop (seqDistance seq now.nextSeq).toNat <+: (reassemblyRead reply.ctx outCapacity).produced) ∧
    ∀ more seq' input', input' ≠ [] →
      (reassemblyPush (reassemblyMachine.run reply.ctx more) seq' input').status = .ok →
      (seqBefore seq seq' = true ↔
        (seqDistance initialSeq seq).toNat < (seqDistance initialSeq seq').toNat) := by
  intro now reply
  have hcapacity : ctx.capacity = data.length ∧ ctx.initialSeq = initialSeq := by
    unfold reassemblyInit at hinit
    split at hinit
    · cases hinit
    · cases hinit
      exact ⟨rfl, rfl⟩
  obtain ⟨-, hkeep⟩ := (account_init hinit).keeps_run calls
  have hnow : Account (reassemblyMachine.answers ctx calls) now := account_run (account_init hinit) calls
  have hsane := hnow.toSane
  have hbase : now.initialSeq = initialSeq := hkeep.initialSeq.trans hcapacity.2
  have hbound : now.capacity < 2147483648 := by
    rw [hkeep.capacity, hcapacity.1]
    exact hsmall
  have hcursor := hsane.cursor
  obtain ⟨hfit, hno, hpush⟩ := @push_ok now hsane seq input hne hok
  have hreply : reply = _ := hpush
  obtain ⟨hnext, hkeepNext⟩ := hnow.step (.push seq input)
  generalize ho : (seq - now.initialSeq).toNat = o at hfit hno hreply
  have hfirst : seq = seqAt now.initialSeq o := by rw [← ho, seqAt_offset]
  have hlast : seqAt seq input.length = seqAt now.initialSeq (o + input.length) := by rw [hfirst, seqAt_add]
  have hbeforeLast := @seqBefore_seqAt now.initialSeq now.readOffset (o + input.length) (by omega) (by omega)
  have hbeforeFirst := @seqBefore_seqAt now.initialSeq now.readOffset o (by omega) (by omega)
  unfold Reassembly.nextSeq
  refine ⟨fun hbefore => ?_, fun hstart hend outCapacity hread => ?_, fun more seq' input' hne' hok' => ?_⟩
  · rw [hlast, ← Bool.not_eq_true, hbeforeLast] at hbefore
    rw [hreply]
    exact hsane.read_of_old hno (by omega)
  · rw [hfirst, ← Bool.not_eq_true, hbeforeFirst] at hstart
    rw [hlast, hbeforeLast] at hend
    rw [hreply] at hread ⊢
    rw [hfirst, seqDistance_seqAt _ (by omega) (by omega)]
    exact hsane.read_of_next hfit (by omega) hend hread
  · obtain ⟨hsane', hkeepMore⟩ := hnext.keeps_run more
    have hkeep' := hkeepNext.trans hkeepMore
    obtain ⟨hfit', -, -⟩ := push_ok hsane' hne' hok'
    rw [hkeep'.initialSeq, hkeep'.capacity] at hfit'
    have hpositive : 0 < input'.length := List.length_pos_iff.mpr hne'
    have hsecond : seq' = seqAt now.initialSeq (seq' - now.initialSeq).toNat := (seqAt_offset _ _).symm
    have horder := @seqBefore_seqAt now.initialSeq o (seq' - now.initialSeq).toNat (by omega) (by omega)
    rw [← hfirst, ← hsecond] at horder
    rw [horder, ← ho, hbase]
    rfl

/-- A window that wraps: the two bytes already read come again with one that is new. -/
theorem reassembly_serial_wrap :
    let ctx : Reassembly := ⟨0xfffffffe, [9, 9, 9, 9], [0, 0, 0, 0], 4, 0, rfl, rfl⟩
    let reply := reassemblyPush (reassemblyMachine.run ctx [.push 0xfffffffe [1, 2], .read 8]) 0xfffffffe [1, 2, 3]
    reply.status = .ok ∧ [3] <+: (reassemblyRead reply.ctx 8).produced := by
  intro ctx reply
  obtain ⟨-, hnext, -⟩ := @reassembly_serial 0xfffffffe [9, 9, 9, 9] ctx rfl (by decide)
    [.push 0xfffffffe [1, 2], .read 8] 0xfffffffe [1, 2, 3] (by decide) (by decide)
  have hread := hnext (by decide) (by decide) 8 (by decide)
  have hdistance : (seqDistance 0xfffffffe
      (reassemblyMachine.run ctx [.push 0xfffffffe [1, 2], .read 8]).nextSeq).toNat = 2 := by decide
  rw [hdistance] at hread
  exact ⟨by decide, hread⟩

end TcpipCourse.L07
