import IsoTransport.Proofs.Session.Traffic

/-!
A session that is reset starts anew (`reset_traceless`). Of all that came before, the settings in force and the
decoders with what they remember are left.
-/

namespace IsoTransport.Session

variable {σ : Type}

def Event.settings? : Event → Option Settings
  | configure settings => some settings
  | observe .. | reset => none

theorem run_settings (s : Session σ) (events : List Event) :
    (s.run events).settings = (events.filterMap Event.settings?).getLast?.getD s.settings := by
  induction events generalizing s with
  | nil => rfl
  | cons event events ih =>
    rw [run_cons, ih, (s.step_frame event).2.1, List.filterMap_cons]
    cases event with
    | configure settings =>
      dsimp only [Event.settings?, Event.settingsAfter]
      rw [List.getLast?_cons, Option.getD_some]
    | observe index frame => rfl
    | reset => rfl

/-- A new session under the settings of this one, whose decoders remember what they do now. -/
def renewed (s : Session σ) : Session σ :=
  start s.settings { decoders := s.router.decoders, memory := s.router.memory, unclaimed := [] }

/-- The engine keeps its window through a reset, which a new session takes from the settings. -/
theorem reset_eq_renewed {s : Session σ} (window : s.engine.window = s.settings.window.toNat) :
    s.reset = s.renewed := by
  rw [reset, Engine.reset_eq, window]
  rfl

/-- Once it is reset, a session cannot be told from a new one with the settings that were put in place last, the same
decoders and no unclaimed messages. Whatever events follow, each is answered alike in both, and both are equal after
it: their counters, their unclaimed messages and all that their engines hold. -/
theorem reset_traceless (settings : Settings) (router : Router σ) (before after : List Event) :
    let s := (start settings router).run before
    let inForce := (before.filterMap Event.settings?).getLast?.getD settings
    let fresh := start inForce { decoders := router.decoders, memory := s.router.memory, unclaimed := [] }
    s.settings = inForce ∧ s.router.decoders = router.decoders ∧
      s.reset.answers after = fresh.answers after ∧ s.reset.run after = fresh.run after := by
  intro s inForce fresh
  have current : s.settings = inForce := run_settings (start settings router) before
  have decoders : s.router.decoders = router.decoders := run_decoders (start settings router) before
  -- the window is held by the engine and by the settings, and both stay in step
  have window : s.engine.window = s.settings.window.toNat := run_window (s := start settings router) rfl before
  have same : s.reset = fresh := by
    rw [reset_eq_renewed window, renewed, current, decoders]
  rw [same]
  exact ⟨current, decoders, rfl, rfl⟩

end IsoTransport.Session
