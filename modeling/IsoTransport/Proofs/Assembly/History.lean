import Mathlib
import IsoTransport.Assembly.Run

/-!
What a run of the engine has seen: the messages it has opened, and what the first push of each frame
brought.
-/

namespace IsoTransport

structure Arrival where
  channel : Channel
  segment : Segment
  payload : Bytes
  deriving DecidableEq

namespace Engine

namespace Event

def index? : Event → Option FrameIndex
  | .push index .. => some index
  | _ => none

def isOn (channel : Channel) : Event → Bool
  | .push _ other _ _ => other = channel
  | _ => false

def arrival? (index : FrameIndex) : Event → Option Arrival
  | .push other channel segment payload =>
    if other = index then some { channel, segment, payload } else none
  | _ => none

end Event

/-- A first frame that was not pushed before opens a message. -/
def opens (e : Engine) : Event → Bool
  | .push index _ (.first _) _ => !e.isVisited index
  | _ => false

def countAfter (e : Engine) (n : Nat) : Event → Nat
  | .reset => 0
  | event => if e.opens event then n + 1 else n

/-- The number of messages opened since the last reset, of which there were `n` before the events. -/
def opened (e : Engine) (n : Nat) : List Event → Nat
  | [] => n
  | event :: events => (e.step event).2.opened (e.countAfter n event) events

def firstArrival? (events : List Event) (index : FrameIndex) : Option Arrival :=
  events.findSome? (·.arrival? index)

def answersOn (e : Engine) (channel : Channel) : List Event → List (Option (Except Fault Outcome))
  | [] => []
  | event :: events =>
    if event.isOn channel then (e.step event).1 :: (e.step event).2.answersOn channel events
    else (e.step event).2.answersOn channel events

/-- The events push frames, none of them twice and none that was pushed before. -/
structure FirstPasses (e : Engine) (events : List Event) : Prop where
  pushes : ∀ event ∈ events, event.index?.isSome
  distinct : (events.filterMap Event.index?).Nodup
  fresh : ∀ index ∈ events.filterMap Event.index?, e.isVisited index = false

theorem isVisited_iff {e : Engine} {index : FrameIndex} :
    e.isVisited index = true ↔ ∃ known, e.visited[index]? = some known := by
  rw [isVisited, Std.TreeMap.contains_eq_isSome_getElem?, Option.isSome_iff_exists]

theorem isVisited_eq_false {e : Engine} {index : FrameIndex} :
    e.isVisited index = false ↔ e.visited[index]? = none := by
  rw [isVisited, Std.TreeMap.contains_eq_isSome_getElem?, Option.isSome_eq_false_iff, Option.isNone_iff_eq_none]

theorem opened_append (e : Engine) (n : Nat) (before after : List Event) :
    e.opened n (before ++ after) = (e.run before).opened (e.opened n before) after := by
  induction before generalizing e n with
  | nil => rfl
  | cons event before ih => exact ih (e.step event).2 (e.countAfter n event)

theorem opened_concat (e : Engine) (n : Nat) (events : List Event) (event : Event) :
    e.opened n (events ++ [event]) = (e.run events).countAfter (e.opened n events) event := by
  rw [opened_append]
  rfl

theorem run_concat (e : Engine) (events : List Event) (event : Event) :
    e.run (events ++ [event]) = ((e.run events).step event).2 :=
  run_append e events [event]

theorem countAfter_eq (e : Engine) (n : Nat) {event : Event} (keeps : event ≠ .reset) :
    e.countAfter n event = if e.opens event then n + 1 else n := by
  cases event with
  | reset => exact absurd rfl keeps
  | push => rfl
  | setWindow => rfl

theorem le_countAfter (e : Engine) (n : Nat) {event : Event} (keeps : event ≠ .reset) :
    n ≤ e.countAfter n event := by
  rw [countAfter_eq e n keeps]
  split <;> omega

theorem le_opened (e : Engine) (n : Nat) {events : List Event} (keeps : .reset ∉ events) :
    n ≤ e.opened n events := by
  induction events generalizing e n with
  | nil => exact Nat.le_refl _
  | cons event events ih =>
    have head : event ≠ .reset := fun same => keeps (same ▸ List.mem_cons_self)
    have tail : .reset ∉ events := fun member => keeps (List.mem_cons_of_mem _ member)
    exact Nat.le_trans (le_countAfter e n head) (ih _ _ tail)

theorem opened_le_firstFrames (e : Engine) (n : Nat) (events : List Event) :
    e.opened n events ≤ n + firstFrames events := by
  induction events generalizing e n with
  | nil => exact Nat.le_refl _
  | cons event events ih =>
    have head : e.countAfter n event ≤ n + firstFrames [event] := by
      cases event with
      | reset => exact Nat.zero_le _
      | setWindow => exact Nat.le_refl _
      | push index channel segment payload =>
        cases segment with
        | consecutive => exact Nat.le_refl _
        | first =>
          rw [countAfter_eq e n (by simp)]
          split
          · exact Nat.le_refl _
          · exact Nat.le_succ _
    have count : firstFrames (event :: events) = firstFrames [event] + firstFrames events := by
      rw [← List.singleton_append]
      exact List.countP_append
    have tail := ih (e.step event).2 (e.countAfter n event)
    rw [opened, count]
    omega

theorem firstArrival?_concat (events : List Event) (event : Event) (index : FrameIndex) :
    firstArrival? (events ++ [event]) index =
      (firstArrival? events index).or (event.arrival? index) := by
  simp only [firstArrival?, List.findSome?_append]
  cases h : event.arrival? index <;> simp [h]

/-! ### First passes -/

theorem FirstPasses.ne_reset {e : Engine} {events : List Event} (first : e.FirstPasses events) :
    .reset ∉ events := by
  intro member
  exact Bool.false_ne_true (first.pushes _ member)

theorem FirstPasses.nodup {e : Engine} {events : List Event} (first : e.FirstPasses events) :
    events.Nodup := by
  have apart := List.pairwise_filterMap.mp first.distinct
  refine apart.imp_of_mem fun {a b} member _ different same => ?_
  obtain ⟨index, pushed⟩ := Option.isSome_iff_exists.mp (first.pushes a member)
  exact different index pushed index (same ▸ pushed) rfl

/-- No event comes twice, so where it comes among the chosen ones is known. -/
theorem FirstPasses.place_eq {e : Engine} {events before after : List Event} {event : Event} {k : Nat}
    {chosen : Event → Bool} (first : e.FirstPasses events) (split : events = before ++ event :: after)
    (here : chosen event = true) (place : (events.filter chosen)[k]? = some event) :
    (before.filter chosen).length = k := by
  have found : (events.filter chosen)[(before.filter chosen).length]? = some event := by
    rw [split, List.filter_append, List.filter_cons_of_pos here,
      List.getElem?_append_right (Nat.le_refl _), Nat.sub_self, List.getElem?_cons_zero]
  obtain ⟨bound, -⟩ := List.getElem?_eq_some_iff.mp found
  exact (List.getElem?_inj bound (first.nodup.filter _)).mp (found.trans place.symm)

theorem FirstPasses.head {e : Engine} {index : FrameIndex} {channel : Channel} {segment : Segment}
    {payload : Bytes} {events : List Event}
    (first : e.FirstPasses (.push index channel segment payload :: events)) :
    e.visited[index]? = none := by
  exact isVisited_eq_false.mp (first.fresh index (by simp [Event.index?]))

theorem FirstPasses.cons_push {e : Engine} {event : Event} {events : List Event}
    (first : e.FirstPasses (event :: events)) :
    ∃ index channel segment payload, event = .push index channel segment payload := by
  have push := first.pushes event List.mem_cons_self
  cases event with
  | push index channel segment payload => exact ⟨_, _, _, _, rfl⟩
  | setWindow => exact (Bool.false_ne_true push).elim
  | reset => exact (Bool.false_ne_true push).elim

theorem filterMap_index?_push (index : FrameIndex) (channel : Channel) (segment : Segment)
    (payload : Bytes) (events : List Event) :
    (Event.push index channel segment payload :: events).filterMap Event.index? =
      index :: events.filterMap Event.index? :=
  List.filterMap_cons_some rfl

theorem FirstPasses.tail {e e' : Engine} {index : FrameIndex} {channel : Channel} {segment : Segment}
    {payload : Bytes} {events : List Event} {placed : Option Placement}
    (first : e.FirstPasses (.push index channel segment payload :: events))
    (visited : e'.visited = e.visited.insert index placed) : e'.FirstPasses events := by
  obtain ⟨pushes, distinct, fresh⟩ := first
  rw [filterMap_index?_push] at distinct fresh
  rw [List.nodup_cons] at distinct
  refine ⟨fun event member => pushes event (List.mem_cons_of_mem _ member), distinct.2, ?_⟩
  intro other member
  have different : index ≠ other := fun same => distinct.1 (same ▸ member)
  have unseen := fresh other (List.mem_cons_of_mem _ member)
  rw [isVisited, visited, Std.TreeMap.contains_insert, ← isVisited, unseen]
  simpa using different

end Engine

end IsoTransport
