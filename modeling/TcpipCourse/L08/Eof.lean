import TcpipCourse.L08.Framing

/-!
# Lesson 08: how the end of a stream is reported

Nothing received is `EOF`, and anything less than was asked for is `TRUNCATED`. Each of the two reads of a frame
keeps to that, but their progress is counted apart.

* `FindsEnd` : the streams whose end a receive runs into;
* `EofLaw` : for such a stream, `EOF` exactly when no byte of the frame was received;
* `eofLaw_iff` : the law holds except for streams that end between header and payload.
-/

namespace TcpipCourse.L08
open Lib

/-- The stream ends inside the header, or inside a payload that fits the buffer. -/
def FindsEnd (out stream : Bytes) : Prop :=
  stream.length < 4 ∨ declared stream ≤ out.length ∧ stream.length < 4 + declared stream

instance (out stream : Bytes) : Decidable (FindsEnd out stream) := inferInstanceAs (Decidable (_ ∨ _))

/-- A receive that runs into the end of the stream returns `EOF` if the stream was empty and `TRUNCATED`
otherwise. -/
def EofLaw (deadline : Timespec) (turns : List RecvTurn) (out : Bytes) (outLen : Nat) (stream : Bytes) : Prop :=
  ∀ result, recvFrameUntil deadline out outLen turns stream = some result → FindsEnd out stream →
    (result.status = .eof ↔ stream = []) ∧ (stream ≠ [] → result.status = .truncated)

theorem frameNeed_le (out stream : Bytes) : frameNeed out stream ≤ stream.length + 1 := by
  unfold frameNeed recvNeed
  rw [List.length_drop]
  split <;> split <;> try omega
  split <;> omega

theorem recvFrameUntil_returns {deadline : Timespec} {turns : List RecvTurn} {out : Bytes} {outLen : Nat}
    {stream : Bytes} (hpat : ∀ turn ∈ turns, PatientRecv deadline turn) (henough : stream.length < recvs turns) :
    ∃ result, recvFrameUntil deadline out outLen turns stream = some result ∧
      result.outcome = frameOutcome out outLen stream := by
  have hreceived := @recvFrameUntil_received deadline turns out outLen stream hpat
  cases hres : recvFrameUntil deadline out outLen turns stream with
  | none =>
    rw [hres] at hreceived
    have hshort : recvs turns < frameNeed out stream := hreceived
    have := frameNeed_le out stream
    omega
  | some result =>
    rw [hres] at hreceived
    exact ⟨result, rfl, hreceived⟩

theorem frameOutcome_status {out stream : Bytes} (outLen : Nat) (h : FindsEnd out stream) :
    (frameOutcome out outLen stream).status = if stream.length = 0 ∨ stream.length = 4 then .eof else .truncated := by
  unfold frameOutcome
  by_cases hshort : stream.length < 4
  · rw [if_pos hshort]
    dsimp only
    by_cases hnil : stream = []
    · rw [if_pos hnil, if_pos (.inl (by rw [hnil]; rfl))]
    · have hpos := List.length_pos_iff.mpr hnil
      rw [if_neg hnil, if_neg (by omega)]
  · obtain ⟨hcap, hcut⟩ := h.resolve_left hshort
    rw [if_neg hshort, if_neg (by omega), if_neg (by omega)]
    dsimp only
    by_cases hfour : stream.length = 4
    · rw [if_pos hfour, if_pos (.inr hfour)]
    · rw [if_neg hfour, if_neg (by omega)]

theorem findsEnd_iff {out stream : Bytes} (outLen : Nat) :
    FindsEnd out stream ↔
      (frameOutcome out outLen stream).status = .eof ∨ (frameOutcome out outLen stream).status = .truncated := by
  constructor
  · intro hend
    rw [frameOutcome_status outLen hend]
    split
    · exact .inl rfl
    · exact .inr rfl
  · intro hreport
    by_contra hend
    unfold FindsEnd at hend
    unfold frameOutcome at hreport
    rw [if_neg (by omega)] at hreport
    by_cases hcap : out.length < declared stream
    · rw [if_pos hcap] at hreport
      simp at hreport
    · rw [if_neg hcap, if_pos (by omega)] at hreport
      simp at hreport

/-- The second read starts its progress at zero, so four received bytes count as none. -/
theorem frameOutcome_law_iff {out stream : Bytes} (outLen : Nat) (h : FindsEnd out stream) :
    (((frameOutcome out outLen stream).status = .eof ↔ stream = []) ∧
      (stream ≠ [] → (frameOutcome out outLen stream).status = .truncated)) ↔ stream.length ≠ 4 := by
  rw [frameOutcome_status outLen h]
  by_cases hnil : stream = []
  · subst hnil
    simp
  · have hpos := List.length_pos_iff.mpr hnil
    by_cases hfour : stream.length = 4
    · rw [if_pos (.inr hfour)]
      simp [hnil, hfour]
    · rw [if_neg (by omega)]
      simp [hnil, hfour]

/-- Ending right behind the header is running into the end when the declared payload fits and is not empty. -/
theorem findsEnd_of_four {out stream : Bytes} (h : stream.length = 4) :
    FindsEnd out stream ↔ 1 ≤ declared stream ∧ declared stream ≤ out.length := by
  unfold FindsEnd
  omega

/-- **Main result.** A receive reports the end of the stream exactly when it runs into it. What it reports
follows the law, unless the stream ends right behind a header that declares a payload. -/
theorem eofLaw_iff {deadline : Timespec} {turns : List RecvTurn} {out stream : Bytes} (outLen : Nat)
    (hpat : ∀ turn ∈ turns, PatientRecv deadline turn) (henough : stream.length < recvs turns) :
    (∀ result, recvFrameUntil deadline out outLen turns stream = some result →
      (FindsEnd out stream ↔ result.status = .eof ∨ result.status = .truncated)) ∧
    (EofLaw deadline turns out outLen stream ↔
      ¬ (stream.length = 4 ∧ 1 ≤ declared stream ∧ declared stream ≤ out.length)) := by
  obtain ⟨result, hres, hout⟩ := @recvFrameUntil_returns deadline turns out outLen stream hpat henough
  have hstatus : result.status = (frameOutcome out outLen stream).status := congrArg Outcome.status hout
  have honly : ∀ result', recvFrameUntil deadline out outLen turns stream = some result' → result' = result :=
    fun result' hres' => Option.some.inj (hres'.symm.trans hres)
  constructor
  · intro result' hres'
    rw [honly result' hres', hstatus]
    exact findsEnd_iff outLen
  · constructor
    · rintro hlaw ⟨hfour, hfits⟩
      have hend : FindsEnd out stream := (findsEnd_of_four hfour).mpr hfits
      have hlawful := hlaw result hres hend
      rw [hstatus] at hlawful
      exact (frameOutcome_law_iff outLen hend).mp hlawful hfour
    · intro hcut result' hres' hend
      rw [honly result' hres', hstatus]
      apply (frameOutcome_law_iff outLen hend).mpr
      intro hfour
      exact hcut ⟨hfour, (findsEnd_of_four hfour).mp hend⟩

theorem eofLaw_iff_payload :
    EofLaw ⟨1, 0⟩ (List.replicate 7 ⟨readyWait, .takes 3⟩) [0, 0] 0 [0, 0, 0, 2, 5] :=
  (eofLaw_iff 0 (by decide) (by decide)).2.mpr (by decide)

/-- The stream ends after a header that declares one byte, and the receive returns `EOF`. -/
theorem not_eofLaw_header_only :
    (∀ turn ∈ List.replicate 2 (⟨readyWait, .takes 4⟩ : RecvTurn), PatientRecv ⟨1, 0⟩ turn) ∧
      ¬ EofLaw ⟨1, 0⟩ (List.replicate 2 ⟨readyWait, .takes 4⟩) [0] 0 [0, 0, 0, 1] := by
  refine ⟨by decide, fun hlaw => ?_⟩
  have hcall : recvFrameUntil ⟨1, 0⟩ [0] 0 (List.replicate 2 ⟨readyWait, .takes 4⟩) [0, 0, 0, 1] =
      some ⟨.eof, [0], 0, [], []⟩ := rfl
  have h := hlaw _ hcall (by decide)
  exact absurd (h.1.mp rfl) (by decide)

end TcpipCourse.L08
