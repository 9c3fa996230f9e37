import Mathlib
import IsoTransport.Delivery.Run

/-!
Every delivered message ends in one place. A journal that the decoders keep tells which of them are called,
and `delivered_once` what becomes of each message along any list of operations; none is lost or handed over
twice.
-/

namespace IsoTransport

/-- A call of the decoder that is registered for a route: the message it was handed, and its answer. -/
structure Call where
  route : Route
  message : Message
  accepted : Bool
  deriving DecidableEq

/-- The decoder that also enters its calls in a journal. -/
def Decoder.journaled {σ : Type} (route : Route) (d : Decoder σ) : Decoder (σ × List Call) where
  name := d.name
  decode message s :=
    let (accepted, memory) := d.decode message s.1
    (accepted, memory, s.2 ++ [⟨route, message, accepted⟩])

namespace Router

variable {σ : Type} {r : Router σ} {m : Message}

def journaled (r : Router σ) : Router (σ × List Call) where
  decoders := r.decoders.map fun route d => d.journaled route
  memory := (r.memory, [])
  unclaimed := r.unclaimed

/-- The calls of decoders that delivering a message comes to, in their order. -/
def calls (r : Router σ) (m : Message) : List Call := (r.journaled.deliver m).2.memory.2

/-- The decoder that a list of operations leaves registered for a route, where `earlier` was before. -/
def registered (route : Route) (earlier : Option (Decoder σ)) (ops : List (Op σ)) : Option (Decoder σ) :=
  ops.foldl
    (fun known op =>
      match op with
      | .insert other d => if other = route then some d else known
      | .erase other => if other = route then none else known
      | .deliver _ | .takeUnclaimed => known)
    earlier

/-! ### The registry -/

theorem decoders_run (r : Router σ) (ops : List (Op σ)) (route : Route) :
    (r.run ops).decoders[route]? = registered route r.decoders[route]? ops := by
  induction ops generalizing r with
  | nil => rfl
  | cons op ops ih =>
    have step : (r.step op).2.decoders[route]? = registered route r.decoders[route]? [op] := by
      cases op with
      | insert other d =>
        show (r.decoders.insert other d)[route]? = if other = route then some d else r.decoders[route]?
        simp [Std.TreeMap.getElem?_insert]
      | erase other =>
        show (r.decoders.erase other)[route]? = if other = route then none else r.decoders[route]?
        simp [Std.TreeMap.getElem?_erase]
      | deliver m =>
        show (r.deliver m).2.decoders[route]? = r.decoders[route]?
        rw [deliver_decoders]
      | takeUnclaimed => rfl
    show ((r.step op).2.run ops).decoders[route]? = _
    rw [ih, step]
    rfl

/-! ### One message -/

def offered (r : Router σ) (m : Message) : List (Route × Decoder σ) :=
  (routes m).filterMap fun route => (r.decoders[route]?).map (route, ·)

theorem candidates_eq (r : Router σ) (m : Message) : r.candidates m = (r.offered m).map Prod.snd := by
  rw [candidates, offered, List.map_filterMap]
  congr
  funext route
  cases r.decoders[route]? <;> rfl

theorem candidates_journaled (r : Router σ) (m : Message) :
    r.journaled.candidates m = (r.offered m).map fun x => x.2.journaled x.1 := by
  rw [candidates, offered, List.map_filterMap]
  congr
  funext route
  rw [journaled, Std.TreeMap.getElem?_map]
  cases r.decoders[route]? <;> rfl

/-- Decoders are called in turn until one accepts, and a journal of the calls changes nothing. -/
theorem offer_journaled (m : Message) (tried : List (Route × Decoder σ)) (memory : σ) (journal : List Call) :
    let plain := offer m (tried.map Prod.snd) memory
    let noted := offer m (tried.map fun x => x.2.journaled x.1) (memory, journal)
    noted.1 = plain.1 ∧ noted.2.1 = plain.2 ∧
      ((plain.1 = none ∧ noted.2.2 = journal ++ tried.map fun x => ⟨x.1, m, false⟩) ∨
        ∃ declined x rest, tried = declined ++ x :: rest ∧ plain.1 = some x.2.name ∧
          noted.2.2 = journal ++ declined.map (fun y => ⟨y.1, m, false⟩) ++ [⟨x.1, m, true⟩]) := by
  induction tried generalizing memory journal with
  | nil => exact ⟨rfl, rfl, .inl ⟨rfl, (List.append_nil _).symm⟩⟩
  | cons x tried ih =>
    intro plain noted
    rcases answer : x.2.decode m memory with ⟨accepted, memory'⟩
    have call : (x.2.journaled x.1).decode m (memory, journal) =
        (accepted, memory', journal ++ [⟨x.1, m, accepted⟩]) := by
      simp only [Decoder.journaled, answer]
    cases accepted with
    | true =>
      have plain_eq : plain = (some x.2.name, memory') := by
        show offer m (x.2 :: tried.map Prod.snd) memory = _
        rw [offer, answer]
      have noted_eq : noted = (some x.2.name, memory', journal ++ [⟨x.1, m, true⟩]) := by
        show offer m (x.2.journaled x.1 :: _) (memory, journal) = _
        rw [offer, call]
        rfl
      rw [plain_eq, noted_eq]
      exact ⟨rfl, rfl, .inr ⟨[], x, tried, rfl, rfl, by simp⟩⟩
    | false =>
      have plain_eq : plain = offer m (tried.map Prod.snd) memory' := by
        show offer m (x.2 :: tried.map Prod.snd) memory = _
        rw [offer, answer]
      have noted_eq : noted =
          offer m (tried.map fun x => x.2.journaled x.1) (memory', journal ++ [⟨x.1, m, false⟩]) := by
        show offer m (x.2.journaled x.1 :: _) (memory, journal) = _
        rw [offer, call]
      rw [plain_eq, noted_eq]
      obtain ⟨same, kept, told⟩ := ih memory' (journal ++ [⟨x.1, m, false⟩])
      refine ⟨same, kept, ?_⟩
      rcases told with ⟨none, log⟩ | ⟨declined, y, rest, split, some, log⟩
      · exact .inl ⟨none, by simp [log]⟩
      · exact .inr ⟨x :: declined, y, rest, by simp [split], some, by simp [log]⟩

theorem deliver_accepted {offered : Option String × σ} {name : String}
    (answer : offer m (r.candidates m) r.memory = offered) (accepted : offered.1 = some name) :
    r.deliver m = (.decoder name, { r with memory := offered.2 }) := by
  unfold deliver
  rw [answer]
  dsimp only
  rw [accepted]

theorem deliver_declined {offered : Option String × σ}
    (answer : offer m (r.candidates m) r.memory = offered) (declined : offered.1 = none) :
    r.deliver m = (.data, { r with memory := offered.2, unclaimed := r.unclaimed ++ [m] }) := by
  unfold deliver
  rw [answer]
  dsimp only
  rw [declined]
  rfl

/-- What becomes of a message, told from the decoders that are registered. -/
inductive Delivered (r : Router σ) (m : Message) : Prop where
  | accepted (declined rest : List (Route × Decoder σ)) (x : Route × Decoder σ)
      (split : r.offered m = declined ++ x :: rest) (destination : (r.deliver m).1 = .decoder x.2.name)
      (calls : r.calls m = declined.map (fun y => ⟨y.1, m, false⟩) ++ [⟨x.1, m, true⟩])
      (unclaimed : (r.deliver m).2.unclaimed = r.unclaimed)
  | declined (destination : (r.deliver m).1 = .data)
      (calls : r.calls m = (r.offered m).map fun y => ⟨y.1, m, false⟩)
      (unclaimed : (r.deliver m).2.unclaimed = r.unclaimed ++ [m])

theorem deliver_told (r : Router σ) (m : Message) :
    r.Delivered m ∧ (r.journaled.deliver m).1 = (r.deliver m).1 ∧
      (r.journaled.deliver m).2.memory.1 = (r.deliver m).2.memory := by
  obtain ⟨same, kept, told⟩ := offer_journaled m (r.offered m) r.memory []
  rw [← candidates_eq, ← candidates_journaled] at same kept told
  rcases told with ⟨declined, log⟩ | ⟨before, x, rest, split, accepted, log⟩
  · have plain := deliver_declined rfl declined
    have noted : r.journaled.deliver m = _ := deliver_declined rfl (same.trans declined)
    refine ⟨.declined ?_ ?_ ?_, ?_, ?_⟩
    · rw [plain]
    · rw [calls, noted]
      exact log
    · rw [plain]
    · rw [noted, plain]
    · rw [noted, plain]
      exact kept
  · have plain := deliver_accepted rfl accepted
    have noted : r.journaled.deliver m = _ := deliver_accepted rfl (same.trans accepted)
    refine ⟨.accepted before rest x split ?_ ?_ ?_, ?_, ?_⟩
    · rw [plain]
    · rw [calls, noted]
      exact log
    · rw [plain]
    · rw [noted, plain]
    · rw [noted, plain]
      exact kept

/-! ### All operations -/

/-- The messages that an answer gives out. -/
def Answer.taken : Answer σ → List Message
  | .unclaimed messages => messages
  | .decoder _ | .destination _ => []

/-- The message that an operation delivered, if it went to no decoder. -/
def toData : Op σ × Answer σ → List Message
  | (.deliver m, .destination .data) => [m]
  | _ => []

theorem step_unclaimed (r : Router σ) (op : Op σ) :
    (r.step op).1.taken ++ (r.step op).2.unclaimed = r.unclaimed ++ toData (op, (r.step op).1) := by
  cases op with
  | insert route d => exact (List.append_nil _).symm
  | erase route => exact (List.append_nil _).symm
  | takeUnclaimed => rfl
  | deliver m =>
    show (r.deliver m).2.unclaimed = r.unclaimed ++ toData (.deliver m, .destination (r.deliver m).1)
    cases (r.deliver_told m).1 with
    | accepted _ _ _ _ destination _ unclaimed => simp [destination, unclaimed, toData]
    | declined destination _ unclaimed => simp [destination, unclaimed, toData]

/-- What is taken out and what is still held are the messages that no decoder took. -/
theorem unclaimed_run (r : Router σ) (ops : List (Op σ)) :
    (r.answers ops).flatMap Answer.taken ++ (r.run ops).unclaimed =
      r.unclaimed ++ (ops.zip (r.answers ops)).flatMap toData := by
  induction ops generalizing r with
  | nil => exact (List.append_nil _).symm
  | cons op ops ih =>
    rw [answers_cons, List.zip_cons_cons, List.flatMap_cons, List.flatMap_cons]
    calc (r.step op).1.taken ++ ((r.step op).2.answers ops).flatMap Answer.taken ++
          (r.run (op :: ops)).unclaimed
        = (r.step op).1.taken ++ (((r.step op).2.answers ops).flatMap Answer.taken ++
            ((r.step op).2.run ops).unclaimed) := List.append_assoc ..
      _ = (r.step op).1.taken ++ (r.step op).2.unclaimed ++
            (ops.zip ((r.step op).2.answers ops)).flatMap toData := by rw [ih, List.append_assoc]
      _ = r.unclaimed ++ (toData (op, (r.step op).1) ++
            (ops.zip ((r.step op).2.answers ops)).flatMap toData) := by
          rw [step_unclaimed, List.append_assoc]

theorem routes_eq (m : Message) :
    routes m =
      (if m.medium = .pduTransport ∨ m.medium = .iPduM then [.pdu m.id] else []) ++ [.medium m.medium] := by
  unfold routes
  cases m.medium <;> rfl

theorem offered_routes (r : Router σ) (m : Message) :
    (r.offered m).map Prod.fst = (routes m).filter fun route => (r.decoders[route]?).isSome := by
  rw [offered, List.map_filterMap, ← List.filterMap_eq_filter]
  congr
  funext route
  cases present : r.decoders[route]? <;> simp [Option.guard, present]

theorem mem_offered {x : Route × Decoder σ} (member : x ∈ r.offered m) : r.decoders[x.1]? = some x.2 := by
  obtain ⟨route, -, found⟩ := List.mem_filterMap.mp member
  obtain ⟨d, present, rfl⟩ := Option.map_eq_some_iff.mp found
  exact present

theorem nodup_routes (m : Message) : (routes m).Nodup := by
  unfold routes
  cases m.medium <;> simp

/-- Along any operations, each message is taken by the first decoder on its routes that is registered and
accepts it, and otherwise kept once as data. Before that one the decoders on its routes have declined, each
asked once with this message as it is, and no other one is called. All data is held until it is taken out, in
the order of delivery. -/
theorem delivered_once (r : Router σ) (ops : List (Op σ)) :
    (∀ before m after, ops = before ++ .deliver m :: after →
      let s := r.run before
      let decoder? (route : Route) := registered route r.decoders[route]? before
      let routes : List Route :=
        (if m.medium = .pduTransport ∨ m.medium = .iPduM then [.pdu m.id] else []) ++ [.medium m.medium]
      let candidates := routes.filter fun route => (decoder? route).isSome
      (s.journaled.deliver m).1 = (s.deliver m).1 ∧
        (s.journaled.deliver m).2.memory.1 = (s.deliver m).2.memory ∧
        ((s.calls m).map Call.route).Nodup ∧
        ((∃ declined route rest d, candidates = declined ++ route :: rest ∧ decoder? route = some d ∧
            s.calls m = declined.map (⟨·, m, false⟩) ++ [⟨route, m, true⟩] ∧
            (s.deliver m).1 = .decoder d.name ∧ (s.deliver m).2.unclaimed = s.unclaimed) ∨
          (s.calls m = candidates.map (⟨·, m, false⟩) ∧ (s.deliver m).1 = .data ∧
            (s.deliver m).2.unclaimed = s.unclaimed ++ [m]))) ∧
      (r.answers ops).flatMap Answer.taken ++ (r.run ops).unclaimed =
        r.unclaimed ++ (ops.zip (r.answers ops)).flatMap toData := by
  refine ⟨?_, r.unclaimed_run ops⟩
  intro before m after _ s decoder? routes candidates
  have registry : ∀ route, decoder? route = s.decoders[route]? :=
    fun route => (r.decoders_run before route).symm
  have chosen : candidates = (s.offered m).map Prod.fst := by
    rw [offered_routes, routes_eq]
    exact List.filter_congr fun route _ => by rw [registry]
  have distinct : candidates.Nodup := by
    rw [chosen, offered_routes]
    exact (nodup_routes m).filter _
  obtain ⟨delivered, same, kept⟩ := s.deliver_told m
  refine ⟨same, kept, ?_⟩
  cases delivered with
  | accepted declined rest x split destination calls unclaimed =>
    rw [split, List.map_append, List.map_cons] at chosen
    have present : s.decoders[x.1]? = some x.2 := mem_offered (m := m) (by simp [split])
    refine ⟨?_, .inl ⟨declined.map Prod.fst, x.1, rest.map Prod.fst, x.2, chosen, ?_, ?_, destination, unclaimed⟩⟩
    · rw [chosen, List.append_cons] at distinct
      have front := distinct.sublist (List.sublist_append_left _ _)
      rw [calls]
      simpa [Function.comp_def] using front
    · rw [registry, present]
    · rw [calls, List.map_map]
      rfl
  | declined destination calls unclaimed =>
    refine ⟨?_, .inr ⟨?_, destination, unclaimed⟩⟩
    · rw [calls, List.map_map]
      rw [chosen] at distinct
      exact distinct
    · rw [calls, chosen, List.map_map]
      rfl

/-- A decoder that takes every other message, in front of one that takes those declared as one byte. -/
theorem delivered_once_alternating :
    let alternating : Decoder Nat := { name := "alternating", decode := fun _ n => (n % 2 = 1, n + 1) }
    let short : Decoder Nat := { name := "short", decode := fun m n => (m.declared = 1, n) }
    let message (payload : Bytes) : Message :=
      { payload, addresses := .pair 1 2, medium := .iPduM, id := 5, declared := payload.length, transfer := some 7 }
    let r : Router Nat := { memory := 0 }
    let before : List (Op Nat) := [.insert (.medium .iPduM) short, .insert (.pdu 5) alternating]
    let ops := before ++ [.deliver (message [1, 2]), .deliver (message [3]), .takeUnclaimed, .erase (.pdu 5),
      .deliver (message [4]), .deliver (message [5, 6])]
    (r.run before).calls (message [1, 2]) =
        [⟨.pdu 5, message [1, 2], false⟩, ⟨.medium .iPduM, message [1, 2], false⟩] ∧
      (((r.run before).calls (message [1, 2])).map Call.route).Nodup ∧
      (r.run ops).unclaimed = [message [5, 6]] ∧
      (r.answers ops).flatMap Answer.taken ++ (r.run ops).unclaimed = [message [1, 2], message [5, 6]] ∧
      (ops.zip (r.answers ops)).flatMap toData = [message [1, 2], message [5, 6]] := by
  intro alternating short message r before ops
  obtain ⟨each, all⟩ := delivered_once r ops
  obtain ⟨-, -, distinct, -⟩ := each before (message [1, 2]) _ rfl
  have sent : (ops.zip (r.answers ops)).flatMap toData = [message [1, 2], message [5, 6]] := by decide +kernel
  refine ⟨by decide +kernel, distinct, by decide +kernel, ?_, sent⟩
  rw [all, sent]
  rfl

end Router

end IsoTransport
