import IsoTransport.Proofs.Settings.Document
import IsoTransport.Settings.Run

/-!
A store holds the last settings it accepted, and they are valid (`SettingsStore.run_current`). Whether a call is
accepted depends on the call alone: a text is read as `Settings.ofJson` reads it, and other settings are checked.
What the store hands out is a cell that it shares, and no later call fills that cell again (`SharedStore.answers_read`).
-/

namespace IsoTransport

theorem Settings.validate_of_check {s t : Settings} (accepted : check s = .ok t) : t.validate = .ok () := by
  have same := check_exact accepted
  unfold check at accepted
  split at accepted
  · rename_i valid
    rwa [← same]
  · cases accepted

namespace SettingsStore

/-! ### Steps -/

/-- What a call asks to put in place, or why it is refused. -/
def Call.verdict? : Call → Option (Except Fault Settings)
  | load text => some (Settings.ofJson text)
  | replace settings => some settings.check
  | snapshot => none

def Call.accepted? (call : Call) : Option Settings := call.verdict?.bind Except.toOption

/-- The answer is the verdict itself, and settings that are accepted take the place of the others. -/
def settle (store : SettingsStore) : Except Fault Settings → Except Fault Settings × SettingsStore
  | .ok s => (.ok s, { store with current := s })
  | .error fault => (.error fault, store)

theorem settle_fst (store : SettingsStore) (verdict : Except Fault Settings) : (store.settle verdict).1 = verdict := by
  cases verdict <;> rfl

theorem replace_eq (store : SettingsStore) (s : Settings) : store.replace s = store.settle s.check := rfl

theorem load_eq (store : SettingsStore) (text : String) : store.load text = store.settle (Settings.ofJson text) := by
  unfold load Settings.ofJson
  cases Settings.parse text <;> rfl

theorem step_eq (store : SettingsStore) (call : Call) :
    store.step call = (call.verdict?.map store.settle).getD (.ok store.current, store) := by
  cases call with
  | load text => exact store.load_eq text
  | replace s => exact store.replace_eq s
  | snapshot => rfl

theorem valid_of_verdict {call : Call} {s : Settings} (verdict : call.verdict? = some (.ok s)) :
    s.validate = .ok () := by
  cases call with
  | load text =>
    obtain ⟨_, _, checked⟩ := ok_of_bind (Option.some.inj verdict)
    exact Settings.validate_of_check checked
  | replace t => exact Settings.validate_of_check (Option.some.inj verdict)
  | snapshot => cases verdict

theorem step_cases (store : SettingsStore) (call : Call) :
    (call.accepted? = none ∧ (store.step call).2 = store) ∨
      ∃ s, call.accepted? = some s ∧ s.validate = .ok () ∧ store.step call = (.ok s, ⟨s⟩) := by
  rw [step_eq]
  cases verdict : call.verdict? with
  | none => exact .inl ⟨by rw [Call.accepted?, verdict]; rfl, rfl⟩
  | some answer =>
    cases answer with
    | error fault => exact .inl ⟨by rw [Call.accepted?, verdict]; rfl, rfl⟩
    | ok s => exact .inr ⟨s, by rw [Call.accepted?, verdict]; rfl, valid_of_verdict verdict, rfl⟩

theorem step_error {store : SettingsStore} {call : Call} {fault : Fault}
    (refused : (store.step call).1 = .error fault) : (store.step call).2 = store := by
  rcases store.step_cases call with ⟨-, same⟩ | ⟨s, -, -, installed⟩
  · exact same
  · rw [installed] at refused
    cases refused

/-! ### Runs -/

theorem run_valid {store : SettingsStore} (valid : store.current.validate = .ok ()) (calls : List Call) :
    (store.run calls).current.validate = .ok () := by
  refine Mealy.run_keeps step (fun t => t.current.validate = .ok ()) (fun call _ t held => ?_) valid
  rcases t.step_cases call with ⟨-, same⟩ | ⟨s, -, accepted, installed⟩
  · rwa [same]
  · rwa [installed]

theorem run_last (store : SettingsStore) (calls : List Call) :
    (store.run calls).current = (calls.filterMap Call.accepted?).getLast?.getD store.current := by
  induction calls generalizing store with
  | nil => rfl
  | cons call calls ih =>
    rw [run_cons, ih]
    rcases store.step_cases call with ⟨none, same⟩ | ⟨s, some, -, installed⟩
    · rw [same, List.filterMap_cons_none none]
    · rw [installed, List.filterMap_cons_some some, List.getLast?_cons, Option.getD_some]

end SettingsStore

/-! ### Shared cells -/

/-- A store that keeps its settings in cells, and hands out their places. -/
structure SharedStore where
  cells : List Settings
  place : Nat

namespace SharedStore

def ofStore (store : SettingsStore) : SharedStore := ⟨[store.current], 0⟩

def read? (shared : SharedStore) (place : Nat) : Option Settings := shared.cells[place]?

def step (shared : SharedStore) (call : SettingsStore.Call) : Except Fault Nat × SharedStore :=
  match call.verdict? with
  | none => (.ok shared.place, shared)
  | some (.error fault) => (.error fault, shared)
  | some (.ok s) => (.ok shared.cells.length, ⟨shared.cells ++ [s], shared.cells.length⟩)

def answers (shared : SharedStore) (calls : List SettingsStore.Call) : List (Except Fault Nat) :=
  Mealy.answers step shared calls

def run (shared : SharedStore) (calls : List SettingsStore.Call) : SharedStore := Mealy.run step shared calls

theorem run_cons (shared : SharedStore) (call : SettingsStore.Call) (calls : List SettingsStore.Call) :
    shared.run (call :: calls) = (shared.step call).2.run calls := rfl

theorem answers_cons (shared : SharedStore) (call : SettingsStore.Call) (calls : List SettingsStore.Call) :
    shared.answers (call :: calls) = (shared.step call).1 :: (shared.step call).2.answers calls := rfl

theorem step_prefix (shared : SharedStore) (call : SettingsStore.Call) :
    shared.cells <+: (shared.step call).2.cells := by
  unfold step
  split
  · exact List.prefix_rfl
  · exact List.prefix_rfl
  · exact List.prefix_append _ _

theorem run_prefix (shared : SharedStore) (calls : List SettingsStore.Call) :
    shared.cells <+: (shared.run calls).cells :=
  Mealy.run_keeps step (fun t => shared.cells <+: t.cells) (fun call _ t kept => kept.trans (t.step_prefix call))
    List.prefix_rfl

theorem read?_run {shared : SharedStore} {place : Nat} {s : Settings} (held : shared.read? place = some s)
    (calls : List SettingsStore.Call) : (shared.run calls).read? place = some s := by
  obtain ⟨later, cells⟩ := shared.run_prefix calls
  have inside : place < shared.cells.length := (List.getElem?_eq_some_iff.mp held).1
  rw [read?, ← cells, List.getElem?_append_left inside]
  exact held

def Holds (shared : SharedStore) (store : SettingsStore) : Prop := shared.read? shared.place = some store.current

theorem holds_ofStore (store : SettingsStore) : (ofStore store).Holds store := rfl

/-- What one call does to both stores. A call hands out the place of the settings that the other store answers with. -/
theorem step_holds {shared : SharedStore} {store : SettingsStore} (holds : shared.Holds store)
    (call : SettingsStore.Call) :
    (shared.step call).2.Holds (store.step call).2 ∧
      ((∃ fault, (shared.step call).1 = .error fault ∧ (store.step call).1 = .error fault) ∨
        ∃ place s, (shared.step call).1 = .ok place ∧ (store.step call).1 = .ok s ∧
          (shared.step call).2.read? place = some s) := by
  have filled (s : Settings) : (shared.cells ++ [s])[shared.cells.length]? = some s := List.getElem?_concat_length
  rw [SettingsStore.step_eq, step]
  cases call.verdict? with
  | none => exact ⟨holds, .inr ⟨_, _, rfl, rfl, holds⟩⟩
  | some verdict =>
    cases verdict with
    | error fault => exact ⟨holds, .inl ⟨fault, rfl, rfl⟩⟩
    | ok s => exact ⟨filled s, .inr ⟨_, s, rfl, rfl, filled s⟩⟩

/-- All that a run handed out is read at its end as it was answered at the time. -/
theorem answers_read {shared : SharedStore} {store : SettingsStore} (holds : shared.Holds store)
    (calls : List SettingsStore.Call) :
    (shared.answers calls).map (Except.map (shared.run calls).read?) = (store.answers calls).map (Except.map some) := by
  induction calls generalizing shared store with
  | nil => rfl
  | cons call calls ih =>
    obtain ⟨next, answered⟩ := step_holds holds call
    rw [answers_cons, SettingsStore.answers_cons, List.map_cons, List.map_cons, run_cons, ih next]
    congr 1
    rcases answered with ⟨fault, place, settings⟩ | ⟨place, s, placed, settings, held⟩
    · rw [place, settings]
      rfl
    · rw [placed, settings, Except.map, Except.map, read?_run held]

end SharedStore

/-! ### Stores -/

namespace SettingsStore

/-- A store as it is made: with the defaults, or with settings that were checked. -/
inductive Made : Settings → SettingsStore → Prop
  | default : Made {} {}
  | checked {s : Settings} {store : SettingsStore} (accepted : ofSettings s = .ok store) : Made s store

theorem Made.holds_valid {s : Settings} {store : SettingsStore} (made : Made s store) :
    store.current = s ∧ s.validate = .ok () := by
  cases made with
  | default => exact ⟨rfl, rfl⟩
  | checked accepted =>
    unfold ofSettings at accepted
    cases checked : s.check with
    | error fault =>
      rw [checked] at accepted
      cases accepted
    | ok t =>
      rw [checked] at accepted
      cases accepted
      obtain rfl := Settings.check_exact checked
      exact ⟨rfl, Settings.validate_of_check checked⟩

/-- A store always holds valid settings: the last that it accepted, or those it was made with. A call that is refused
leaves it as it was; a text is accepted and refused as settings are read from it, with the same fault; and what was
handed out stays as it was, whatever calls follow. -/
theorem run_current {s : Settings} {store : SettingsStore} (made : Made s store) (calls : List Call) :
    let last := store.run calls
    let shared := SharedStore.ofStore store
    last.current.validate = .ok () ∧
      last.current = (calls.filterMap Call.accepted?).getLast?.getD s ∧
      (∀ call fault, (last.step call).1 = .error fault → (last.step call).2 = last) ∧
      (∀ t, (last.replace t).1 = t.check) ∧
      (∀ text, (last.load text).1 = Settings.ofJson text ∧
        ∀ t, Settings.ofJson text = .ok t → (last.load text).2.current = t) ∧
      (shared.answers calls).map (Except.map (shared.run calls).read?) =
        (store.answers calls).map (Except.map some) := by
  intro last shared
  obtain ⟨rfl, valid⟩ := made.holds_valid
  refine ⟨run_valid valid calls, run_last store calls, fun call fault refused => step_error refused, ?_, ?_, ?_⟩
  · intro t
    rw [replace_eq, settle_fst]
  · intro text
    rw [load_eq, settle_fst]
    refine ⟨rfl, fun t read => ?_⟩
    rw [read]
    rfl
  · exact SharedStore.answers_read (SharedStore.holds_ofStore store) calls

/-- The last settings that are accepted are read from a text, before one that is not valid as a whole; the first
snapshot still shows the settings that the store was made with. -/
theorem run_current_reload :
    let made : Settings := { window := 3 }
    let calls : List Call := [.snapshot, .load "\x7b\"window\": 70000\x7d", .replace { window := 6 },
      .load "\x7b\"window\": 4\x7d", .load "\x7b\"window\": 5, \"flexray_addressing\": 0\x7d",
      .replace { window := 7, flexRayWidth := .zero }]
    let store : SettingsStore := { current := made }
    let shared := SharedStore.ofStore store
    Made made store ∧ (store.run calls).current = { window := 4 } ∧
      (store.run calls).current.validate = .ok () ∧
      (shared.answers calls).map (Except.map (shared.run calls).read?) =
        (store.answers calls).map (Except.map some) ∧
      (store.answers calls).head? = some (.ok made) := by
  intro made calls store shared
  have checked : Made made store := .checked (by decide +kernel)
  obtain ⟨valid, last, -, -, -, handed⟩ := run_current checked calls
  exact ⟨checked, last.trans (by decide +kernel), valid, handed, rfl⟩

end SettingsStore

end IsoTransport
