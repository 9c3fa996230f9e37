import IsoTransport.Proofs.Session.Twins

/-!
The cycle counter of FlexRay. The slot and the channel of an identifier stay apart from it, bit by bit, and so a
session that observes the frames of a stream in other cycles answers as before (`Session.cycles_ignored`).
-/

namespace IsoTransport

/-! ### Identifiers -/

namespace FlexRay

variable {id : UInt32} {slot slot' : UInt16} {cycle cycle' channel channel' : UInt8} {i : Nat}

def withCycle (id : UInt32) (cycle : UInt8) : UInt32 := composeId (splitId id).1 cycle (splitId id).2.2

theorem getElem_withoutCycle (inside : i < 32) :
    (withoutCycle id).toBitVec[i] = ((decide (i < 8) || decide (16 ≤ i)) && id.toBitVec[i]) := by
  have mask : ∀ i, (inside : i < 32) → (0xffff00ff#32)[i] = (decide (i < 8) || decide (16 ≤ i)) := by decide
  rw [← mask i inside, Bool.and_comm]
  exact BitVec.getElem_and inside

theorem getElem_composeId (inside : i < 32) :
    (composeId slot cycle channel).toBitVec[i] =
      if _ : i < 8 then channel.toBitVec[i]
      else if _ : i < 16 then cycle.toBitVec[i - 8]
      else slot.toBitVec[i - 16] := by
  simp [composeId]
  grind

theorem splitId_composeId : splitId (composeId slot cycle channel) = (slot, cycle, channel) := by
  simp only [splitId, composeId, Prod.mk.injEq]
  refine ⟨?_, ?_, ?_⟩
  · apply UInt16.toBitVec_inj.mp
    ext i inside
    simp
    grind
  · apply UInt8.toBitVec_inj.mp
    ext i inside
    simp
    grind
  · apply UInt8.toBitVec_inj.mp
    ext i inside
    simp

theorem withoutCycle_composeId : withoutCycle (composeId slot cycle channel) = composeId slot 0 channel := by
  apply UInt32.toBitVec_inj.mp
  ext i inside
  rw [getElem_withoutCycle, getElem_composeId inside, getElem_composeId inside]
  simp
  grind

theorem withoutCycle_withCycle : withoutCycle (withCycle id cycle) = withoutCycle id := by
  apply UInt32.toBitVec_inj.mp
  ext i inside
  rw [getElem_withoutCycle, getElem_withoutCycle, withCycle, getElem_composeId inside]
  simp [splitId]
  grind

theorem withoutCycle_composeId_inj :
    withoutCycle (composeId slot cycle channel) = withoutCycle (composeId slot' cycle' channel') ↔
      slot = slot' ∧ channel = channel' := by
  rw [withoutCycle_composeId, withoutCycle_composeId]
  constructor
  · intro same
    have parts := congrArg splitId same
    rw [splitId_composeId, splitId_composeId] at parts
    simpa using parts
  · rintro ⟨rfl, rfl⟩
    rfl

end FlexRay

/-! ### Frames and messages -/

namespace Frame

def withCycle (frame : Frame) (cycle : UInt8) : Frame := { frame with id := FlexRay.withCycle frame.id cycle }

/-- The frame itself, or a FlexRay frame in another cycle. -/
def Recycled (frame other : Frame) : Prop :=
  other = frame ∨ frame.medium = .flexRay ∧ ∃ cycle, other = frame.withCycle cycle

end Frame

/-- The message as it would be without the cycle counter of FlexRay. -/
def Message.withoutCycle (m : Message) : Message :=
  { m with id := if m.medium = .flexRay then FlexRay.withoutCycle m.id else m.id }

def Decoder.IgnoresId {σ : Type} (d : Decoder σ) : Prop :=
  ∀ (m : Message) (id : UInt32) (memory : σ), d.decode { m with id } memory = d.decode m memory

theorem Settings.alike_of_recycled {settings : Settings} {frame other : Frame} (recycled : frame.Recycled other) :
    settings.Alike Message.withoutCycle frame other := by
  obtain rfl | ⟨medium, cycle, rfl⟩ := recycled
  · exact .refl settings _
  · have format : AddressingFormat.ofFrame (frame.withCycle cycle) settings =
        AddressingFormat.ofFrame frame settings := by
      simp only [AddressingFormat.ofFrame, Frame.withCycle, medium]
    have location : (frame.withCycle cycle).locate settings = frame.locate settings := by
      rw [Frame.locate, format]
      rfl
    refine ⟨?_, location, ?_, fun _ _ => rfl, ?_, fun m => ?_⟩
    · simp only [Settings.selects, Frame.withCycle, medium]
    · rw [Settings.reading, Settings.reading, location]
      rfl
    · simp only [Frame.channel, Frame.withCycle, medium, if_true, FlexRay.withoutCycle_withCycle]
      rfl
    · simp only [Message.withoutCycle, Frame.withCycle, medium, if_true, FlexRay.withoutCycle_withCycle]

theorem Message.eq_or_of_withoutCycle {m m' : Message} (shown : m'.withoutCycle = m.withoutCycle) :
    m' = m ∨ m.medium = .flexRay ∧ m' = { m with id := m'.id } := by
  obtain ⟨payload, addresses, medium, id, declared, transfer⟩ := m
  obtain ⟨payload', addresses', medium', id', declared', transfer'⟩ := m'
  simp only [withoutCycle, mk.injEq] at shown
  obtain ⟨rfl, rfl, rfl, same, rfl, rfl⟩ := shown
  by_cases flexRay : medium' = .flexRay
  · exact .inr ⟨flexRay, rfl⟩
  · rw [if_neg flexRay, if_neg flexRay] at same
    exact .inl (same ▸ rfl)

theorem Router.looksAt_withoutCycle {σ : Type} {r : Router σ}
    (blind : ∀ d, r.decoders[Route.medium .flexRay]? = some d → d.IgnoresId) :
    r.LooksAt Message.withoutCycle := by
  intro m m' shown
  obtain rfl | ⟨flexRay, same⟩ := Message.eq_or_of_withoutCycle shown
  · exact ⟨rfl, fun _ _ _ _ _ => rfl⟩
  · have only : routes m = [.medium .flexRay] := by simp only [routes, flexRay]
    rw [same]
    refine ⟨by simp only [routes, flexRay], fun route listed d found memory => ?_⟩
    rw [only, List.mem_singleton] at listed
    subst listed
    exact blind d found m m'.id memory

namespace Session

variable {σ : Type}

/-- In other cycles, FlexRay frames have the same answers, leave the same engine, counters and decoders, and complete
the same messages but for their cycle. The channels of two FlexRay frames differ only where their slots, channels or
extended flags do. -/
theorem cycles_ignored (s : Session σ)
    (blind : ∀ d, s.router.decoders[Route.medium .flexRay]? = some d → d.IgnoresId)
    {feed feed' : List (FrameIndex × Frame)}
    (recycled : List.Forall₂ (fun x y => y.1 = x.1 ∧ x.2.Recycled y.2) feed feed') :
    (s.answers (feed'.map Event.ofFrame) = s.answers (feed.map Event.ofFrame) ∧
      Twins Message.withoutCycle (s.run (feed.map Event.ofFrame)) (s.run (feed'.map Event.ofFrame)) ∧
      (s.handed feed').map Message.withoutCycle = (s.handed feed).map Message.withoutCycle) ∧
      ∀ (slot slot' : UInt16) (cycle cycle' channel channel' : UInt8) (data data' : Bytes)
        (flags flags' : Can.Flags),
        { Frame.flexRay slot cycle channel data with flags }.channel =
            { Frame.flexRay slot' cycle' channel' data' with flags := flags' }.channel ↔
          slot = slot' ∧ channel = channel' ∧ flags.extended = flags'.extended := by
  refine ⟨run_twins (.refl s) (Router.looksAt_withoutCycle blind) ?_, fun slot slot' cycle cycle' _ _ _ _ _ _ => ?_⟩
  · exact recycled.imp fun x y related => ⟨related.1, Settings.alike_of_recycled related.2⟩
  · simp only [Frame.channel, Frame.flexRay, Frame.isExtended, if_true, Channel.mk.injEq, true_and,
      FlexRay.withoutCycle_composeId_inj, and_assoc]

/-- A message in the cycles 4 and 5 of a slot, and in the cycles 5 and 63, with a decoder that counts its bytes. -/
theorem cycles_ignored_apart :
    let counting : Decoder Nat := { name := "counting", decode := fun m n => (true, n + m.payload.length) }
    let router : Router Nat :=
      { decoders := (∅ : Std.TreeMap Route (Decoder Nat)).insert (.medium .flexRay) counting, memory := 0 }
    let s : Session Nat := start {} router
    let feed : List (FrameIndex × Frame) :=
      [(0, .flexRay 0x20 4 1 [0x0a, 0x0b, 0x10, 3, 1]), (1, .flexRay 0x20 5 1 [0x0a, 0x0b, 0x21, 2, 3])]
    let feed' : List (FrameIndex × Frame) :=
      [(0, .flexRay 0x20 5 1 [0x0a, 0x0b, 0x10, 3, 1]), (1, .flexRay 0x20 63 1 [0x0a, 0x0b, 0x21, 2, 3])]
    let message (cycle : UInt8) : Message :=
      { payload := [1, 2, 3], addresses := .pair 10 11, medium := .flexRay, id := FlexRay.composeId 0x20 cycle 1,
        declared := 3, transfer := some 1 }
    s.answers (feed'.map Event.ofFrame) = s.answers (feed.map Event.ofFrame) ∧
      s.handed feed = [message 5] ∧ s.handed feed' = [message 63] ∧
      (message 63).withoutCycle = (message 5).withoutCycle ∧
      (s.run (feed'.map Event.ofFrame)).router.memory = 3 := by
  intro counting router s feed feed' message
  have blind : ∀ d, s.router.decoders[Route.medium .flexRay]? = some d → d.IgnoresId := by
    intro d found
    have known : s.router.decoders[Route.medium .flexRay]? = some counting := Std.TreeMap.getElem?_insert_self
    obtain rfl := Option.some.inj (known.symm.trans found)
    exact fun _ _ _ => rfl
  have recycled : List.Forall₂ (fun x y => y.1 = x.1 ∧ x.2.Recycled y.2) feed feed' :=
    .cons ⟨rfl, .inr ⟨rfl, 5, by decide⟩⟩ (.cons ⟨rfl, .inr ⟨rfl, 63, by decide⟩⟩ .nil)
  obtain ⟨⟨answers, after, handed⟩, -⟩ := cycles_ignored s blind recycled
  have before : s.handed feed = [message 5] := by decide +kernel
  have later : s.handed feed' = [message 63] := by decide +kernel
  have memory : (s.run (feed.map Event.ofFrame)).router.memory = 3 := by decide +kernel
  rw [before, later] at handed
  exact ⟨answers, before, later, List.singleton_inj.mp handed, after.router.memory.trans memory⟩

end Session

end IsoTransport
