import TcpipCourse.Lib.Checked
import TcpipCourse.L08.Stream
import TcpipCourse.L10.Receive
import TcpipCourse.LinuxL01.Echo

/-!
# The deadlines of the lessons

Lessons 08 and 10 and the first Linux lab each have their own copy of the deadline arithmetic, on types of their
own: `int64_t`, `long long`, or `time_t` and `long` themselves.

* `…Checked` : the six functions with each operation in its C type, `none` when one overflows; the model's own
  functions are what they return (`…Checked_eq`);
* `Timespec.ofNs` : a time of so many nanoseconds, in normal form; `Timespec.remaining` : the milliseconds to a
  deadline, rounded up;
* `deadline_arithmetic` : all copies compute exactly this, and none overflows.
-/

namespace TcpipCourse
open Lib

/-- What C leaves open: how wide `time_t` and `long` are. `int` has 32 bits, `int64_t` and `long long` have 64. -/
structure DataModel where
  timeBits : Nat
  longBits : Nat
  time_width : 32 ≤ timeBits ∧ timeBits ≤ 64
  long_width : 32 ≤ longBits ∧ longBits ≤ 64

/-! ## The functions, with each operation in its type -/

/-- `now` plus the timeout, with one carry. -/
def carryChecked (model : DataModel) (now : Timespec) (timeoutMs : Int) : Option Timespec := do
  let tvSec ← checked model.timeBits (now.tvSec + timeoutMs.tdiv 1000)
  let timeoutNs ← checked model.longBits (timeoutMs.tmod 1000 * nsPerMs)
  let tvNsec ← checked model.longBits (now.tvNsec + timeoutNs)
  if tvNsec ≥ nsPerS then
    let carried ← checked model.timeBits (tvSec + 1)
    let rest ← checked model.longBits (tvNsec - nsPerS)
    return ⟨carried, rest⟩
  else return ⟨tvSec, tvNsec⟩

/-- `deadline` less `now`, with one borrow: the seconds in `secBits` bits, the nanoseconds in `nsecBits`. -/
def borrowChecked (secBits nsecBits : Nat) (deadline now : Timespec) : Option (Int × Int) := do
  let seconds ← checked secBits (deadline.tvSec - now.tvSec)
  let nanoseconds ← checked nsecBits (deadline.tvNsec - now.tvNsec)
  if nanoseconds < 0 then
    let borrowed ← checked secBits (seconds - 1)
    let rest ← checked nsecBits (nanoseconds + nsPerS)
    return (borrowed, rest)
  else return (seconds, nanoseconds)

/-- The milliseconds as an `int`; `rounded` has the nanoseconds, increased for a quotient that is rounded up. -/
def clampChecked (seconds : Int) (rounded : Option Int) : Option Int := do
  if seconds > intMax.tdiv 1000 then return intMax
  else
    let nanoseconds ← rounded
    let whole ← checked 64 (seconds * 1000)
    let milliseconds ← checked 64 (whole + nanoseconds.tdiv nsPerMs)
    if milliseconds > intMax then return intMax else checked 32 milliseconds

namespace L08

def makeDeadlineChecked (model : DataModel) (timeoutMs : Int) (clock : Option Timespec) :
    Option (Except Status Timespec) :=
  if timeoutMs < 0 then some (.error .invalidArgument)
  else match clock with
    | none => some (.error .system)
    | some now => do
      let timeoutNs ← checked 64 (timeoutMs * nsPerMs)
      let nanoseconds ← checked 64 (now.tvNsec + timeoutNs)
      let carry ← checked model.timeBits (nanoseconds.tdiv nsPerS)
      let tvSec ← checked model.timeBits (now.tvSec + carry)
      let tvNsec ← checked model.longBits (nanoseconds.tmod nsPerS)
      return .ok ⟨tvSec, tvNsec⟩

def remainingMsChecked (deadline : Timespec) (clock : Option Timespec) : Option (Except Status Int) :=
  match clock with
  | none => some (.error .system)
  | some now => do
    let (seconds, nanoseconds) ← borrowChecked 64 64 deadline now
    if seconds < 0 ∨ (seconds = 0 ∧ nanoseconds ≤ 0) then return .ok 0
    else
      let remaining ← clampChecked seconds (checked 64 (nanoseconds + nsPerMs) >>= fun sum => checked 64 (sum - 1))
      return .ok remaining

end L08

namespace L10

def deadlineAfterChecked (model : DataModel) (now : Timespec) (timeoutMs : Int) : Option Timespec :=
  carryChecked model now timeoutMs

def remainingMsChecked (model : DataModel) (deadline : Timespec) (clock : Option Timespec) : Option Int :=
  match clock with
  | none => some (-1)
  | some now => do
    let (seconds, nanoseconds) ← borrowChecked model.timeBits model.longBits deadline now
    if seconds < 0 ∨ (seconds = 0 ∧ nanoseconds ≤ 0) then return 0
    else clampChecked seconds (checked 64 (nanoseconds + 999999))

end L10

namespace LinuxL01

def deadlineChecked (model : DataModel) (now : Timespec) (timeoutMs : Int) : Option Timespec :=
  carryChecked model now timeoutMs

def remainingMsChecked (model : DataModel) (deadline : Timespec) (clock : Option Timespec) : Option Int :=
  match clock with
  | none => some (-1)
  | some now =>
    if compareTime now deadline ≥ 0 then some 0
    else do
      let (seconds, nanoseconds) ← borrowChecked model.timeBits model.longBits deadline now
      clampChecked seconds (checked 64 (nanoseconds + 999999))

end LinuxL01

/-! ## What they return is what the model returns -/

theorem carryChecked_eq {model : DataModel} {now deadline : Timespec} {timeoutMs : Int}
    (h : carryChecked model now timeoutMs = some deadline) : LinuxL01.deadline now timeoutMs = deadline := by
  unfold carryChecked at h
  obtain ⟨-, h⟩ := checked_bind_eq_some.mp h
  obtain ⟨-, h⟩ := checked_bind_eq_some.mp h
  obtain ⟨-, h⟩ := checked_bind_eq_some.mp h
  unfold LinuxL01.deadline
  dsimp only
  split at h
  · rename_i hcarry
    obtain ⟨-, h⟩ := checked_bind_eq_some.mp h
    obtain ⟨-, h⟩ := checked_bind_eq_some.mp h
    rw [if_pos hcarry]
    exact Option.some.inj h
  · rename_i hcarry
    rw [if_neg hcarry]
    exact Option.some.inj h

theorem borrowChecked_eq {secBits nsecBits : Nat} {deadline now : Timespec} {seconds nanoseconds : Int}
    (h : borrowChecked secBits nsecBits deadline now = some (seconds, nanoseconds)) :
    seconds = (if deadline.tvNsec - now.tvNsec < 0 then deadline.tvSec - now.tvSec - 1
      else deadline.tvSec - now.tvSec) ∧
    nanoseconds = (if deadline.tvNsec - now.tvNsec < 0 then deadline.tvNsec - now.tvNsec + nsPerS
      else deadline.tvNsec - now.tvNsec) := by
  unfold borrowChecked at h
  obtain ⟨-, h⟩ := checked_bind_eq_some.mp h
  obtain ⟨-, h⟩ := checked_bind_eq_some.mp h
  split at h
  · rename_i hborrow
    obtain ⟨-, h⟩ := checked_bind_eq_some.mp h
    obtain ⟨-, h⟩ := checked_bind_eq_some.mp h
    obtain ⟨rfl, rfl⟩ := Prod.mk.inj (Option.some.inj h)
    rw [if_pos hborrow, if_pos hborrow]
    exact ⟨rfl, rfl⟩
  · rename_i hborrow
    obtain ⟨rfl, rfl⟩ := Prod.mk.inj (Option.some.inj h)
    rw [if_neg hborrow, if_neg hborrow]
    exact ⟨rfl, rfl⟩

theorem clampChecked_eq {seconds up remaining : Int} {rounded : Option Int} (hup : ∀ n ∈ rounded, n = up)
    (h : clampChecked seconds rounded = some remaining) :
    (if seconds > intMax.tdiv 1000 then intMax
      else if seconds * 1000 + up.tdiv nsPerMs > intMax then intMax
      else seconds * 1000 + up.tdiv nsPerMs) = remaining := by
  unfold clampChecked at h
  split at h
  · rename_i hbig
    rw [if_pos hbig]
    exact Option.some.inj h
  · rename_i hsmall
    rw [if_neg hsmall]
    obtain ⟨n, hn, h⟩ := Option.bind_eq_some_iff.mp h
    obtain rfl := hup n hn
    obtain ⟨-, h⟩ := checked_bind_eq_some.mp h
    obtain ⟨-, h⟩ := checked_bind_eq_some.mp h
    split at h
    · rename_i hclamp
      rw [if_pos hclamp]
      exact Option.some.inj h
    · rename_i hclamp
      rw [if_neg hclamp]
      exact (checked_eq_some.mp h).2

theorem L08.makeDeadlineChecked_eq {model : DataModel} {timeoutMs : Int} {clock : Option Timespec}
    {result : Except Status Timespec} (h : L08.makeDeadlineChecked model timeoutMs clock = some result) :
    L08.makeDeadline timeoutMs clock = result := by
  unfold L08.makeDeadlineChecked at h
  unfold L08.makeDeadline
  split at h
  · rename_i hneg
    rw [if_pos hneg]
    exact Option.some.inj h
  · rename_i hneg
    rw [if_neg hneg]
    cases clock with
    | none => exact Option.some.inj h
    | some now =>
      dsimp only at h
      obtain ⟨-, h⟩ := checked_bind_eq_some.mp h
      obtain ⟨-, h⟩ := checked_bind_eq_some.mp h
      obtain ⟨-, h⟩ := checked_bind_eq_some.mp h
      obtain ⟨-, h⟩ := checked_bind_eq_some.mp h
      obtain ⟨-, h⟩ := checked_bind_eq_some.mp h
      exact Option.some.inj h

theorem L08.remainingMsChecked_eq {deadline : Timespec} {clock : Option Timespec} {result : Except Status Int}
    (h : L08.remainingMsChecked deadline clock = some result) : L08.remainingMs deadline clock = result := by
  cases clock with
  | none => exact Option.some.inj h
  | some now =>
    unfold L08.remainingMsChecked at h
    obtain ⟨⟨seconds, nanoseconds⟩, hborrow, h⟩ := Option.bind_eq_some_iff.mp h
    obtain ⟨hseconds, hnanoseconds⟩ := borrowChecked_eq hborrow
    unfold L08.remainingMs
    dsimp only at h ⊢
    rw [← hseconds, ← hnanoseconds]
    split at h
    · rename_i hlate
      rw [if_pos hlate]
      exact Option.some.inj h
    · rename_i hlate
      rw [if_neg hlate]
      obtain ⟨remaining, hclamp, h⟩ := Option.bind_eq_some_iff.mp h
      have hup : ∀ n ∈ (checked 64 (nanoseconds + nsPerMs) >>= fun sum => checked 64 (sum - 1)),
          n = nanoseconds + nsPerMs - 1 := by
        intro n hn
        exact (checked_eq_some.mp (checked_bind_eq_some.mp hn).2).2.symm
      rw [← Option.some.inj h, ← clampChecked_eq hup hclamp]
      split
      · rfl
      · split <;> rfl

theorem L10.remainingMsChecked_eq {model : DataModel} {deadline : Timespec} {clock : Option Timespec}
    {remaining : Int} (h : L10.remainingMsChecked model deadline clock = some remaining) :
    L10.remainingMs deadline clock = remaining := by
  cases clock with
  | none => exact Option.some.inj h
  | some now =>
    unfold L10.remainingMsChecked at h
    obtain ⟨⟨seconds, nanoseconds⟩, hborrow, h⟩ := Option.bind_eq_some_iff.mp h
    obtain ⟨hseconds, hnanoseconds⟩ := borrowChecked_eq hborrow
    unfold L10.remainingMs
    dsimp only at h ⊢
    rw [← hseconds, ← hnanoseconds]
    split at h
    · rename_i hlate
      rw [if_pos hlate]
      exact Option.some.inj h
    · rename_i hlate
      rw [if_neg hlate]
      exact clampChecked_eq (fun n hn => (checked_eq_some.mp hn).2.symm) h

theorem LinuxL01.remainingMsChecked_eq {model : DataModel} {deadline : Timespec} {clock : Option Timespec}
    {remaining : Int} (h : LinuxL01.remainingMsChecked model deadline clock = some remaining) :
    LinuxL01.remainingMs deadline clock = remaining := by
  cases clock with
  | none => exact Option.some.inj h
  | some now =>
    unfold LinuxL01.remainingMsChecked at h
    unfold LinuxL01.remainingMs
    dsimp only at h ⊢
    split at h
    · rename_i hlate
      rw [if_pos hlate]
      exact Option.some.inj h
    · rename_i hlate
      rw [if_neg hlate]
      obtain ⟨⟨seconds, nanoseconds⟩, hborrow, h⟩ := Option.bind_eq_some_iff.mp h
      obtain ⟨hseconds, hnanoseconds⟩ := borrowChecked_eq hborrow
      rw [← hseconds, ← hnanoseconds]
      exact clampChecked_eq (fun n hn => (checked_eq_some.mp hn).2.symm) h

/-! ## Times in normal form -/

/-- The time of so many nanoseconds, with less than a second in `tv_nsec`. -/
def Timespec.ofNs (ns : Int) : Timespec := ⟨ns / nsPerS, ns % nsPerS⟩

theorem Timespec.ofNs_normal (ns : Int) : (Timespec.ofNs ns).Normal := by
  unfold Timespec.ofNs Timespec.Normal nsPerS
  dsimp only
  omega

@[simp] theorem Timespec.ofNs_ns (ns : Int) : (Timespec.ofNs ns).ns = ns := by
  unfold Timespec.ofNs Timespec.ns nsPerS
  dsimp only
  omega

/-- The milliseconds to the deadline, rounded up: as many as an `int` can hold. -/
def Timespec.remaining (deadline now : Timespec) : Int :=
  if deadline.ns ≤ now.ns then 0 else min intMax ⌈((deadline.ns - now.ns : Int) : ℚ) / (1000000 : Nat)⌉

section
variable {deadline now : Timespec}

theorem Timespec.remaining_eq_zero : deadline.remaining now = 0 ↔ deadline.ns ≤ now.ns := by
  unfold Timespec.remaining
  split
  · rename_i hlate
    exact ⟨fun _ => hlate, fun _ => rfl⟩
  · rename_i hearly
    have hceil := le_ceil_mul (d := 1000000) (deadline.ns - now.ns) (by decide)
    unfold intMax
    omega

theorem Timespec.one_le_remaining (hearly : now.ns < deadline.ns) : 1 ≤ deadline.remaining now := by
  have hceil := le_ceil_mul (d := 1000000) (deadline.ns - now.ns) (by decide)
  unfold Timespec.remaining intMax
  rw [if_neg (by omega)]
  omega

/-- A wait of this length does not end before the deadline, unless an `int` cannot hold it. -/
theorem Timespec.le_remaining (hshort : deadline.remaining now < intMax) :
    deadline.ns ≤ now.ns + deadline.remaining now * nsPerMs := by
  have hceil := le_ceil_mul (d := 1000000) (deadline.ns - now.ns) (by decide)
  unfold Timespec.remaining at hshort ⊢
  split at hshort
  · rename_i hlate
    rw [if_pos hlate]
    omega
  · rename_i hearly
    rw [if_neg hearly]
    unfold intMax nsPerMs at *
    omega

/-- A wait of this length ends less than a millisecond behind the deadline. -/
theorem Timespec.remaining_lt (hearly : now.ns < deadline.ns) :
    now.ns + deadline.remaining now * nsPerMs < deadline.ns + nsPerMs := by
  have hceil := ceil_mul_lt (d := 1000000) (deadline.ns - now.ns) (by decide)
  unfold Timespec.remaining
  rw [if_neg (by omega)]
  unfold intMax nsPerMs
  omega

end

/-! ## No operation overflows -/

theorem carryChecked_of {model : DataModel} {now : Timespec} {timeoutMs : Int} (hnow : now.Normal)
    (hsec : 0 ≤ now.tvSec) (ht0 : 0 ≤ timeoutMs) (ht : timeoutMs ≤ intMax)
    (hroom : Fits model.timeBits (Timespec.ofNs (now.ns + timeoutMs * nsPerMs)).tvSec) :
    carryChecked model now timeoutMs = some (Timespec.ofNs (now.ns + timeoutMs * nsPerMs)) := by
  obtain ⟨hlow, hhigh⟩ := hnow
  unfold nsPerS at hhigh
  unfold intMax at ht
  have hlong := model.long_width.1
  have hns : now.ns + timeoutMs * nsPerMs =
      (now.tvSec + timeoutMs / 1000) * nsPerS + (now.tvNsec + timeoutMs % 1000 * nsPerMs) := by
    unfold Timespec.ns nsPerMs nsPerS
    omega
  unfold Timespec.ofNs nsPerS at hroom
  dsimp only at hroom
  have hsmall : Fits model.timeBits (now.tvSec + timeoutMs / 1000) := by
    refine (fits_zero _).between hroom (by omega) ?_
    rw [hns]
    unfold nsPerMs nsPerS
    omega
  unfold carryChecked
  rw [Int.tdiv_eq_ediv_of_nonneg ht0, Int.tmod_eq_emod_of_nonneg ht0, checked_bind hsmall]
  unfold nsPerMs
  rw [checked_bind (fits_of_int hlong (by omega) (by omega)),
    checked_bind (fits_of_int hlong (by omega) (by omega))]
  unfold nsPerMs nsPerS at hns
  unfold nsPerMs at hroom
  unfold Timespec.ofNs nsPerS
  rw [hns] at hroom ⊢
  split
  · rename_i hcarry
    have hsucc : now.tvSec + timeoutMs / 1000 + 1 =
        ((now.tvSec + timeoutMs / 1000) * 1000000000 + (now.tvNsec + timeoutMs % 1000 * 1000000)) / 1000000000 := by
      omega
    rw [hsucc, checked_bind hroom, checked_bind (fits_of_int hlong (by omega) (by omega))]
    congr 2
    omega
  · rename_i hcarry
    congr 2
    · omega
    · omega

theorem L08.makeDeadlineChecked_of {model : DataModel} {now : Timespec} {timeoutMs : Int} (hnow : now.Normal)
    (ht0 : 0 ≤ timeoutMs) (ht : timeoutMs ≤ intMax)
    (hroom : Fits model.timeBits (Timespec.ofNs (now.ns + timeoutMs * nsPerMs)).tvSec) :
    L08.makeDeadlineChecked model timeoutMs (some now) =
      some (.ok (Timespec.ofNs (now.ns + timeoutMs * nsPerMs))) := by
  obtain ⟨hlow, hhigh⟩ := hnow
  unfold nsPerS at hhigh
  unfold intMax at ht
  have hns : now.ns + timeoutMs * nsPerMs = now.tvSec * nsPerS + (now.tvNsec + timeoutMs * nsPerMs) := by
    unfold Timespec.ns
    omega
  have hsum : 0 ≤ now.tvNsec + timeoutMs * nsPerMs := by
    unfold nsPerMs
    omega
  have hcarry : now.tvSec + (now.tvNsec + timeoutMs * nsPerMs) / nsPerS =
      (now.ns + timeoutMs * nsPerMs) / nsPerS := by
    rw [hns]
    unfold nsPerMs nsPerS
    omega
  have hrest : (now.tvNsec + timeoutMs * nsPerMs) % nsPerS = (now.ns + timeoutMs * nsPerMs) % nsPerS := by
    rw [hns]
    unfold nsPerMs nsPerS
    omega
  unfold L08.makeDeadlineChecked
  rw [if_neg (by omega)]
  dsimp only
  rw [checked_bind (fits_64 (by unfold nsPerMs; omega) (by unfold nsPerMs; omega)),
    checked_bind (fits_64 hsum (by unfold nsPerMs; omega)), Int.tdiv_eq_ediv_of_nonneg hsum,
    Int.tmod_eq_emod_of_nonneg hsum,
    checked_bind (fits_of_int model.time_width.1 (by unfold nsPerMs nsPerS; omega) (by unfold nsPerMs nsPerS; omega)),
    hcarry, checked_bind (show Fits _ ((now.ns + timeoutMs * nsPerMs) / nsPerS) from hroom), hrest,
    checked_bind (fits_of_int model.long_width.1 (by unfold nsPerS; omega) (by unfold nsPerS; omega))]
  rfl

section
variable {deadline now : Timespec} (hdeadline : deadline.Normal) (hnow : now.Normal)
include hdeadline hnow

theorem borrowChecked_of {secBits nsecBits : Nat} (hdsec : 0 ≤ deadline.tvSec) (hsec : 0 ≤ now.tvSec)
    (hdfits : Fits secBits deadline.tvSec) (hfits : Fits secBits now.tvSec) (hwidth : 32 ≤ nsecBits) :
    borrowChecked secBits nsecBits deadline now =
      some ((deadline.ns - now.ns) / nsPerS, (deadline.ns - now.ns) % nsPerS) := by
  obtain ⟨hd0, hd1⟩ := hdeadline
  obtain ⟨hn0, hn1⟩ := hnow
  obtain ⟨hsub, hpred⟩ := hdfits.sub hfits hdsec hsec
  unfold nsPerS at hd1 hn1
  unfold borrowChecked
  rw [checked_bind hsub, checked_bind (fits_of_int hwidth (by omega) (by omega))]
  unfold Timespec.ns nsPerS
  split
  · rw [checked_bind hpred, checked_bind (fits_of_int hwidth (by omega) (by omega))]
    congr 2
    · omega
    · omega
  · congr 2
    · omega
    · omega

theorem LinuxL01.compareTime_nonneg_iff : LinuxL01.compareTime now deadline ≥ 0 ↔ deadline.ns ≤ now.ns := by
  obtain ⟨hd0, hd1⟩ := hdeadline
  obtain ⟨hn0, hn1⟩ := hnow
  unfold nsPerS at hd1 hn1
  unfold LinuxL01.compareTime Timespec.ns nsPerS
  split
  · split <;> omega
  · split
    · split <;> omega
    · omega

end

theorem expired_iff (deadline now : Timespec) : ((deadline.ns - now.ns) / nsPerS < 0 ∨
    ((deadline.ns - now.ns) / nsPerS = 0 ∧ (deadline.ns - now.ns) % nsPerS ≤ 0)) ↔ deadline.ns ≤ now.ns := by
  unfold nsPerS
  omega

/-- The tail that the three functions share, in front of the deadline. -/
theorem clampChecked_of {deadline now : Timespec} {rounded : Option Int} (hearly : ¬deadline.ns ≤ now.ns)
    (hrounded : rounded = some ((deadline.ns - now.ns) % nsPerS + 999999)) :
    clampChecked ((deadline.ns - now.ns) / nsPerS) rounded = some (deadline.remaining now) := by
  unfold Timespec.remaining
  rw [if_neg hearly]
  have hpos : 0 < deadline.ns - now.ns := by omega
  generalize deadline.ns - now.ns = gap at hpos hrounded
  subst hrounded
  have hlow := le_ceil_mul (d := 1000000) gap (by decide)
  have h1000 : intMax.tdiv 1000 = 2147483 := rfl
  unfold clampChecked
  rw [h1000]
  split
  · rename_i hbig
    unfold nsPerS at hbig
    congr 1
    unfold intMax
    omega
  · rename_i hsmall
    have hup : (gap % nsPerS + 999999).tdiv nsPerMs = (gap % nsPerS + 999999) / nsPerMs :=
      Int.tdiv_eq_ediv_of_nonneg (by unfold nsPerS; omega)
    have hceil : ⌈(gap : ℚ) / (1000000 : Nat)⌉ = gap / nsPerS * 1000 + (gap % nsPerS + 999999) / nsPerMs := by
      apply ceil_eq _ (by decide)
      · unfold nsPerS nsPerMs
        omega
      · unfold nsPerS nsPerMs
        omega
    unfold nsPerS at hsmall
    change (checked 64 (gap / nsPerS * 1000) >>= _) = _
    rw [hup, hceil, checked_bind (fits_64 (by unfold nsPerS; omega) (by unfold nsPerS; omega)),
      checked_bind (fits_64 (by unfold nsPerS nsPerMs; omega) (by unfold nsPerS nsPerMs; omega))]
    split
    · rename_i hclamp
      rw [min_eq_left (by omega)]
      rfl
    · rename_i hfit
      rw [min_eq_right (by omega), checked_of_fits]
      unfold intMax at hfit
      exact fits_of_int (le_refl _) (by unfold nsPerS nsPerMs; omega) (by omega)

section
variable {deadline now : Timespec} (hdeadline : deadline.Normal) (hnow : now.Normal)
  (hdsec : 0 ≤ deadline.tvSec) (hsec : 0 ≤ now.tvSec)
include hdeadline hnow hdsec hsec

theorem L08.remainingMsChecked_of (hdfits : Fits 64 deadline.tvSec) (hfits : Fits 64 now.tvSec) :
    L08.remainingMsChecked deadline (some now) = some (.ok (deadline.remaining now)) := by
  unfold L08.remainingMsChecked
  dsimp only
  rw [borrowChecked_of hdeadline hnow hdsec hsec hdfits hfits (by decide)]
  change (if _ then _ else _) = _
  by_cases hlate : deadline.ns ≤ now.ns
  · rw [if_pos ((expired_iff deadline now).mpr hlate), Timespec.remaining_eq_zero.mpr hlate]
    rfl
  · rw [if_neg fun h => hlate ((expired_iff deadline now).mp h), clampChecked_of hlate]
    · rfl
    · unfold nsPerS nsPerMs
      rw [checked_bind (fits_64 (by omega) (by omega)), checked_of_fits (fits_64 (by omega) (by omega))]
      congr 1
      omega

theorem L10.remainingMsChecked_of {model : DataModel} (hdfits : Fits model.timeBits deadline.tvSec)
    (hfits : Fits model.timeBits now.tvSec) :
    L10.remainingMsChecked model deadline (some now) = some (deadline.remaining now) := by
  unfold L10.remainingMsChecked
  dsimp only
  rw [borrowChecked_of hdeadline hnow hdsec hsec hdfits hfits model.long_width.1]
  change (if _ then _ else _) = _
  by_cases hlate : deadline.ns ≤ now.ns
  · rw [if_pos ((expired_iff deadline now).mpr hlate), Timespec.remaining_eq_zero.mpr hlate]
    rfl
  · rw [if_neg fun h => hlate ((expired_iff deadline now).mp h)]
    exact clampChecked_of hlate (checked_of_fits ⟨by unfold nsPerS; omega, by unfold nsPerS; omega⟩)

theorem LinuxL01.remainingMsChecked_of {model : DataModel} (hdfits : Fits model.timeBits deadline.tvSec)
    (hfits : Fits model.timeBits now.tvSec) :
    LinuxL01.remainingMsChecked model deadline (some now) = some (deadline.remaining now) := by
  unfold LinuxL01.remainingMsChecked
  dsimp only
  by_cases hlate : deadline.ns ≤ now.ns
  · rw [if_pos ((LinuxL01.compareTime_nonneg_iff hdeadline hnow).mpr hlate), Timespec.remaining_eq_zero.mpr hlate]
  · rw [if_neg fun h => hlate ((LinuxL01.compareTime_nonneg_iff hdeadline hnow).mp h),
      borrowChecked_of hdeadline hnow hdsec hsec hdfits hfits model.long_width.1]
    exact clampChecked_of hlate (checked_of_fits ⟨by unfold nsPerS; omega, by unfold nsPerS; omega⟩)

end

/-- The three copies agree, on every platform: a deadline is exactly so many milliseconds behind the reading
that it starts from, and what remains of it is rounded up to a millisecond and down to an `int`. -/
theorem deadline_arithmetic (model : DataModel) {start : Timespec} {timeoutMs : Int} (hstart : start.Normal)
    (hsec : 0 ≤ start.tvSec) (ht0 : 0 ≤ timeoutMs) (ht : timeoutMs ≤ intMax)
    (hroom : Fits model.timeBits ((start.ns + timeoutMs * nsPerMs) / nsPerS)) :
    ∃ deadline : Timespec, deadline.Normal ∧ deadline.ns = start.ns + timeoutMs * nsPerMs ∧
      (L08.makeDeadline timeoutMs (some start) = .ok deadline ∧
        L08.makeDeadlineChecked model timeoutMs (some start) = some (.ok deadline)) ∧
      (L10.deadlineAfter start timeoutMs = deadline ∧
        L10.deadlineAfterChecked model start timeoutMs = some deadline) ∧
      (LinuxL01.deadline start timeoutMs = deadline ∧
        LinuxL01.deadlineChecked model start timeoutMs = some deadline) ∧
      ∀ now : Timespec, now.Normal → 0 ≤ now.tvSec → Fits model.timeBits now.tvSec →
        ∃ remaining : Int,
          remaining = (if deadline.ns ≤ now.ns then 0
            else min intMax ⌈((deadline.ns - now.ns : Int) : ℚ) / (1000000 : Nat)⌉) ∧
          (remaining = 0 ↔ deadline.ns ≤ now.ns) ∧
          (now.ns < deadline.ns → 1 ≤ remaining ∧ now.ns + remaining * nsPerMs < deadline.ns + nsPerMs) ∧
          (remaining < intMax → deadline.ns ≤ now.ns + remaining * nsPerMs) ∧
          (L08.remainingMs deadline (some now) = .ok remaining ∧
            L08.remainingMsChecked deadline (some now) = some (.ok remaining)) ∧
          (L10.remainingMs deadline (some now) = remaining ∧
            L10.remainingMsChecked model deadline (some now) = some remaining) ∧
          (LinuxL01.remainingMs deadline (some now) = remaining ∧
            LinuxL01.remainingMsChecked model deadline (some now) = some remaining) := by
  have h08 := L08.makeDeadlineChecked_of hstart ht0 ht hroom
  have hcarry := carryChecked_of hstart hsec ht0 ht hroom
  refine ⟨Timespec.ofNs (start.ns + timeoutMs * nsPerMs), Timespec.ofNs_normal _, Timespec.ofNs_ns _,
    ⟨L08.makeDeadlineChecked_eq h08, h08⟩, ⟨carryChecked_eq hcarry, hcarry⟩, ⟨carryChecked_eq hcarry, hcarry⟩,
    fun now hnow hnsec hfits => ?_⟩
  have hnormal := Timespec.ofNs_normal (start.ns + timeoutMs * nsPerMs)
  have hdsec : 0 ≤ (Timespec.ofNs (start.ns + timeoutMs * nsPerMs)).tvSec := by
    obtain ⟨hlow, -⟩ := hstart
    unfold Timespec.ofNs Timespec.ns nsPerMs nsPerS
    dsimp only
    omega
  have hdfits : Fits model.timeBits (Timespec.ofNs (start.ns + timeoutMs * nsPerMs)).tvSec := hroom
  generalize Timespec.ofNs (start.ns + timeoutMs * nsPerMs) = deadline at hnormal hdsec hdfits
  have hwide := model.time_width.2
  have r08 := L08.remainingMsChecked_of hnormal hnow hdsec hnsec (hdfits.mono hwide) (hfits.mono hwide)
  have r10 := L10.remainingMsChecked_of hnormal hnow hdsec hnsec hdfits hfits
  have r01 := LinuxL01.remainingMsChecked_of hnormal hnow hdsec hnsec hdfits hfits
  exact ⟨deadline.remaining now, rfl, Timespec.remaining_eq_zero,
    fun hearly => ⟨Timespec.one_le_remaining hearly, Timespec.remaining_lt hearly⟩, Timespec.le_remaining,
    ⟨L08.remainingMsChecked_eq r08, r08⟩, ⟨L10.remainingMsChecked_eq r10, r10⟩,
    ⟨LinuxL01.remainingMsChecked_eq r01, r01⟩⟩

theorem deadline_arithmetic_carry : ∃ deadline : Timespec, deadline.ns = 6001000000 ∧
    L10.deadlineAfter ⟨5, 999000000⟩ 2 = deadline ∧
    (∃ remaining : Int, 1 ≤ remaining ∧ L08.remainingMs deadline (some ⟨5, 999999999⟩) = .ok remaining) ∧
    LinuxL01.remainingMs deadline (some ⟨6, 1000000⟩) = 0 := by
  obtain ⟨deadline, -, hns, -, ⟨h10, -⟩, -, hwait⟩ :=
    @deadline_arithmetic ⟨32, 32, by decide, by decide⟩ ⟨5, 999000000⟩ 2 (by decide) (by decide) (by decide)
      (by decide) (by decide)
  obtain ⟨remaining, -, -, hearly, -, ⟨h08, -⟩, -⟩ := hwait ⟨5, 999999999⟩ (by decide) (by decide) (by decide)
  obtain ⟨remaining', -, hlate, -, -, -, -, ⟨h01, -⟩⟩ := hwait ⟨6, 1000000⟩ (by decide) (by decide) (by decide)
  refine ⟨deadline, hns, h10, ⟨remaining, (hearly ?_).1, h08⟩, h01.trans (hlate.mpr ?_)⟩
  · rw [hns]
    decide
  · rw [hns]
    decide

end TcpipCourse
