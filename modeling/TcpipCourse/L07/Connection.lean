import TcpipCourse.L07.Reassembly
import TcpipCourse.Lib.Homing

/-!
# Lesson 07: what a connection goes through

Runs of `transition` from `CLOSED`.

* `lifetimes` : the ways through the machine; `attempts` : how far one of them got in each state;
* `transitions_iff` : a run is a list of lifetimes and an attempt that its state says, in one manner only.
-/

namespace TcpipCourse.L07
open Lib

/-- `tcpip_l07_transition` called with one event after the other, as long as it returns `OK`. -/
def transitions : TcpState → List TcpEvent → Except Status TcpState
  | state, [] => .ok state
  | state, event :: events =>
    match transition state event with
    | .error status => .error status
    | .ok state => transitions state events

/-! ## Lifetimes -/

/-- Active, active with both sides at once, and passive. -/
def openings : List (List TcpEvent) :=
  [[.activeOpen, .receiveSynAck], [.activeOpen, .receiveSyn, .receiveAck], [.passiveOpen, .receiveSyn, .receiveAck]]

/-- The application closes first, and the `FIN` of the peer comes behind the acknowledgement or with it; or the peer
closes first. -/
def closings : List (List TcpEvent) :=
  [[.appClose, .receiveAck, .receiveFin, .timeout], [.appClose, .receiveFinAck, .timeout],
    [.receiveFin, .appClose, .receiveAck]]

/-- The ways from `CLOSED` through the machine: a listener that is closed again, or an opening and a closing. -/
def lifetimes : List (List TcpEvent) :=
  [.passiveOpen, .appClose] :: openings.flatMap fun o => closings.map fun c => o ++ c

def waysHome : TcpState → List (List TcpEvent)
  | .closed => lifetimes
  | .listen => [.appClose] :: closings.map fun c => .receiveSyn :: .receiveAck :: c
  | .synSent => (closings.map fun c => .receiveSynAck :: c) ++ closings.map fun c => .receiveSyn :: .receiveAck :: c
  | .synReceived => closings.map fun c => .receiveAck :: c
  | .established => closings
  | .finWait1 => [[.receiveAck, .receiveFin, .timeout], [.receiveFinAck, .timeout]]
  | .finWait2 => [[.receiveFin, .timeout]]
  | .closeWait => [[.appClose, .receiveAck]]
  | .lastAck => [[.receiveAck]]
  | .timeWait => [[.timeout]]

/-- What was accepted since the machine was in `CLOSED` for the last time. -/
def attempts : TcpState → List (List TcpEvent)
  | .closed => [[]]
  | .listen => [[.passiveOpen]]
  | .synSent => [[.activeOpen]]
  | .synReceived => [[.activeOpen, .receiveSyn], [.passiveOpen, .receiveSyn]]
  | .established => openings
  | .finWait1 => openings.map fun o => o ++ [.appClose]
  | .finWait2 => openings.map fun o => o ++ [.appClose, .receiveAck]
  | .closeWait => openings.map fun o => o ++ [.receiveFin]
  | .lastAck => openings.map fun o => o ++ [.receiveFin, .appClose]
  | .timeWait => (openings.map fun o => o ++ [.appClose, .receiveAck, .receiveFin]) ++
      openings.map fun o => o ++ [.appClose, .receiveFinAck]

/-- `transition`, without the status of a refusal. -/
def step (state : TcpState) (event : TcpEvent) : Option TcpState := (transition state event).toOption

theorem transitions_ok_iff {events : List TcpEvent} :
    ∀ {state state' : TcpState}, transitions state events = .ok state' ↔ follow step state events = some state' := by
  induction events with
  | nil =>
    intro state state'
    simp [transitions, follow]
  | cons event events ih =>
    intro state state'
    rw [transitions, follow, step]
    cases transition state event with
    | error status => simp [Except.toOption]
    | ok next => exact ih

/-- **Step lemma.** A transition takes the first event off the ways home. -/
theorem homing_waysHome : Homing step .closed waysHome where
  ne_nil s := by cases s <;> decide
  exists_way s := by cases s <;> exact ⟨_, List.mem_cons_self⟩
  stuck s e w h := by
    cases s <;> cases e <;> simp [step, transition, Except.toOption] at h <;>
      simp [waysHome, lifetimes, openings, closings]
  lands s e w h := by
    cases s <;> cases e <;> simp [step, transition, Except.toOption] at h <;>
      simp [waysHome, closings]
  goes s e t w h ht := by
    cases s <;> cases e <;> simp [step, transition, Except.toOption] at h <;> subst h <;>
      simp [waysHome, lifetimes, openings, closings] at ht ⊢

theorem follow_attempt (state : TcpState) : ∀ a ∈ attempts state, follow step .closed a = some state := by
  cases state <;> decide

theorem attempt_part (state : TcpState) : ∀ a ∈ attempts state, ∃ l ∈ lifetimes, a <+: l ∧ a ≠ l := by
  cases state <;> decide

/-- Every part of a lifetime is an attempt of the state it leads to. -/
theorem attempt_of_part : ∀ l ∈ lifetimes, ∀ k < l.length, ∀ state,
    follow step .closed (l.take k) = some state → l.take k ∈ attempts state := by
  have hall : ∀ l ∈ lifetimes, ∀ k < l.length,
      (follow step .closed (l.take k)).all fun state => l.take k ∈ attempts state := by decide
  intro l hl k hk state hstate
  have hmem := hall l hl k hk
  rw [hstate] at hmem
  exact of_decide_eq_true hmem

/-- **Main result.** From `CLOSED` a state is reached exactly by whole lifetimes and an attempt of that state behind
them, and each such run is split in one manner only. -/
theorem transitions_iff {events : List TcpEvent} {state : TcpState} :
    transitions .closed events = .ok state ↔ ∃! run : List (List TcpEvent) × List TcpEvent,
      (∀ l ∈ run.1, l ∈ lifetimes) ∧ run.2 ∈ attempts state ∧ events = run.1.flatten ++ run.2 := by
  rw [transitions_ok_iff]
  constructor
  · intro hfollow
    have hsome : (follow step .closed events).isSome := by rw [hfollow]; rfl
    obtain ⟨ls, a, hls, ⟨l, hl, hfront, hne⟩, rfl⟩ := homing_waysHome.isSome_follow_iff.mp hsome
    rw [homing_waysHome.follow_flatten_append hls] at hfollow
    refine ⟨(ls, a), ⟨hls, ?_, rfl⟩, ?_⟩
    · have hlt : a.length < l.length :=
        Nat.lt_of_le_of_ne hfront.length_le fun hlen => hne (hfront.eq_of_length hlen)
      have htake := List.prefix_iff_eq_take.mp hfront
      rw [htake] at hfollow ⊢
      exact attempt_of_part l hl a.length hlt state hfollow
    · rintro ⟨ms, b⟩ ⟨hms, hb, heq⟩
      obtain ⟨m, hm, hpart⟩ := attempt_part state b hb
      obtain ⟨hsame, hrest⟩ := homing_waysHome.split_unique (s := .closed) hms hls hm hl hpart ⟨hfront, hne⟩ heq.symm
      exact Prod.ext hsame hrest
  · rintro ⟨⟨ls, a⟩, ⟨hls, ha, rfl⟩, -⟩
    rw [homing_waysHome.follow_flatten_append hls]
    exact follow_attempt state a ha

end TcpipCourse.L07
