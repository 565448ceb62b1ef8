import Mathlib.Tactic.Linarith
import Callisto.Exits.ExitExecutor

/-! What a laddered exit has at the venue at most, and when its passes keep it so. -/

namespace Callisto.Exits

open Callisto.Library Callisto.Library.Runs

def ValidAnswer (size : ℚ) : PlaceAnswer → Prop
  | .raises _ => True
  | .result result => 0 ≤ result.rest ∧ result.fill + result.rest ≤ size

def fillSize (fills : List (ℚ × ℚ)) : ℚ := (fills.map Prod.fst).sum

def fillNotional (fills : List (ℚ × ℚ)) : ℚ := (fills.map fun fill => fill.1 * fill.2).sum

structure Idle (slot : Slot) : Prop where
  size : 0 ≤ slot.child.size
  filled : slot.child.filledSize = 0
  average : slot.child.averageFillPrice = none
  working : slot.working = 0
  stray : slot.stray = 0
  fills : slot.fills = []

/-- A child whose record agrees with the venue, within its size. -/
structure Sound (slot : Slot) : Prop where
  size : 0 ≤ slot.child.size
  working : 0 ≤ slot.working
  stray : slot.stray = 0
  nonneg : 0 ≤ slot.child.filledSize
  bound : slot.child.filledSize + slot.working ≤ slot.child.size
  filled : slot.child.filledSize = fillSize slot.fills
  notional : slot.child.filledSize * countedPrice slot.child = fillNotional slot.fills
  unfilled : slot.child.filledSize = 0 → slot.child.averageFillPrice = none ∧ slot.fills = []
  planned : slot.child.status = .planned → Idle slot

variable {slot : Slot}

theorem Sound.idle (sound : Sound slot) (filled : slot.child.filledSize = 0) (working : slot.working = 0) : Idle slot where
  size := sound.size
  filled := filled
  average := (sound.unfilled filled).1
  working := working
  stray := sound.stray
  fills := (sound.unfilled filled).2

theorem fill_nonneg (result : PlaceResult) : 0 ≤ result.fill := le_max_left _ _

section Submit

variable (now : ℚ) (slot : Slot) (result : PlaceResult)

theorem submit_size : (submitChildOrder now slot (.result result)).child.size = slot.child.size := by
  unfold submitChildOrder
  simp only
  split_ifs <;> rfl

theorem submit_price : (submitChildOrder now slot (.result result)).child.price = slot.child.price := by
  unfold submitChildOrder
  simp only
  split_ifs <;> rfl

theorem submit_filledSize : (submitChildOrder now slot (.result result)).child.filledSize = slot.child.filledSize + result.fill := by
  unfold submitChildOrder
  simp only
  split_ifs <;> rfl

theorem submit_average : (submitChildOrder now slot (.result result)).child.averageFillPrice =
    if 0 < result.fill then result.fillPrice.or slot.child.averageFillPrice else slot.child.averageFillPrice := by
  unfold submitChildOrder
  simp only
  split_ifs <;> rfl

theorem submit_status : (submitChildOrder now slot (.result result)).child.status ≠ .planned := by
  unfold submitChildOrder
  simp only
  split_ifs <;> exact nofun

end Submit

variable {pending : PendingExit}

theorem submit_sound (idle : Idle slot) (now : ℚ) {answer : PlaceAnswer} (valid : ValidAnswer slot.child.size answer) :
    Sound (submitChildOrder now slot answer) := by
  obtain ⟨size, filled, average, working, stray, fills⟩ := idle
  cases answer with
  | raises error =>
    constructor
    · exact size
    · exact working.ge
    · exact stray
    · exact filled.ge
    · show slot.child.filledSize + slot.working ≤ slot.child.size
      rw [filled, working, add_zero]
      exact size
    · show slot.child.filledSize = fillSize slot.fills
      rw [filled, fills]
      rfl
    · show slot.child.filledSize * _ = fillNotional slot.fills
      rw [filled, fills, zero_mul]
      rfl
    · exact fun _ => ⟨average, fills⟩
    · exact nofun
  | result result =>
    obtain ⟨rest, within⟩ := valid
    have nonneg := fill_nonneg result
    have filledNow : (submitChildOrder now slot (.result result)).child.filledSize = result.fill := by
      rw [submit_filledSize, filled, zero_add]
    have fillsNow : (submitChildOrder now slot (.result result)).fills =
        if 0 < result.fill then [(result.fill, result.fillPrice.getD slot.child.price)] else [] := by
      show (if 0 < result.fill then slot.fills ++ _ else slot.fills) = _
      rw [fills, List.nil_append]
    have averageNow := submit_average now slot result
    rw [average, Option.or_none] at averageNow
    constructor
    · rw [submit_size]
      exact size
    · exact rest
    · show slot.stray + slot.working = 0
      rw [stray, working, add_zero]
    · rw [filledNow]
      exact nonneg
    · rw [filledNow, submit_size]
      exact within
    · rw [filledNow, fillsNow]
      by_cases positive : 0 < result.fill
      · rw [if_pos positive]
        simp [fillSize]
      · rw [if_neg positive]
        simp only [fillSize, List.map_nil, List.sum_nil]
        linarith
    · rw [filledNow, fillsNow]
      by_cases positive : 0 < result.fill
      · rw [if_pos positive] at averageNow ⊢
        have counted : countedPrice (submitChildOrder now slot (.result result)).child = result.fillPrice.getD slot.child.price := by
          rw [countedPrice, averageNow, submit_price, PlaceResult.fillPrice, Option.filter_filter]
          simp
        rw [counted]
        simp [fillNotional]
      · have none_ : result.fill = 0 := by linarith
        rw [if_neg positive, none_, zero_mul]
        rfl
    · rw [filledNow]
      intro none_
      have empty : ¬0 < result.fill := by linarith
      rw [if_neg empty] at averageNow fillsNow
      exact ⟨averageNow, fillsNow⟩
    · exact fun planned => absurd planned (submit_status now slot result)

theorem cancel_child (slot : Slot) (answer : Bool) : (cancelChildOrder slot answer).child = slot.child := by
  unfold cancelChildOrder
  split_ifs <;> rfl

theorem cancel_sound (sound : Sound slot) (answer : Bool) : Sound (cancelChildOrder slot answer) := by
  unfold cancelChildOrder
  split
  case isFalse => exact sound
  case isTrue =>
    have within := sound.bound
    have nonneg := sound.working
    exact {
      sound with
      working := le_refl _
      bound := by
        show slot.child.filledSize + 0 ≤ slot.child.size
        linarith
      planned := fun planned => { sound.planned planned with working := rfl } }

theorem cancel_working {answer : Bool} (acknowledged : cancelAcknowledged slot answer = true)
    (named : orderName slot.child = "" → slot.working = 0) : (cancelChildOrder slot answer).working = 0 := by
  unfold cancelChildOrder
  split
  case isTrue => rfl
  case isFalse kept =>
    apply named
    by_contra name
    unfold cancelAcknowledged at acknowledged
    rw [decide_eq_false name, Bool.false_or] at acknowledged
    exact kept ⟨name, acknowledged⟩

theorem Sound.touch (sound : Sound slot) (child : Child) (size : child.size = slot.child.size)
    (filled : child.filledSize = slot.child.filledSize) (average : child.averageFillPrice = slot.child.averageFillPrice)
    (price : child.price = slot.child.price) (status : child.status = .planned → slot.child.status = .planned) :
    Sound { slot with child := child } where
  size := size ▸ sound.size
  working := sound.working
  stray := sound.stray
  nonneg := filled ▸ sound.nonneg
  bound := by
    show child.filledSize + slot.working ≤ child.size
    rw [filled, size]
    exact sound.bound
  filled := filled.trans sound.filled
  notional := by
    show child.filledSize * countedPrice child = _
    rw [countedPrice, average, price, filled]
    exact sound.notional
  unfilled none_ := ⟨average.trans (sound.unfilled (filled.symm.trans none_)).1, (sound.unfilled (filled.symm.trans none_)).2⟩
  planned planned :=
    let idle := sound.planned (status planned)
    ⟨size ▸ idle.size, filled.trans idle.filled, average.trans idle.average, idle.working, idle.stray, idle.fills⟩

/-- A child that an acknowledged cancellation lets resubmit has no fill, and no working order that could not be named. -/
def Resubmittable (slot : Slot) (cancel : Bool) : Prop :=
  cancelAcknowledged slot cancel = true → slot.child.filledSize = 0 ∧ (orderName slot.child = "" → slot.working = 0)

theorem cancelled_idle {cancel : Bool} (sound : Sound slot) (safe : Resubmittable slot cancel)
    (acknowledged : cancelAcknowledged slot cancel = true) : Idle (cancelChildOrder slot cancel) := by
  obtain ⟨none_, named⟩ := safe acknowledged
  have unfilled : (cancelChildOrder slot cancel).child.filledSize = 0 := by rw [cancel_child, none_]
  exact (cancel_sound sound cancel).idle unfilled (cancel_working acknowledged named)

theorem resubmit_sound {cancelled : Slot} {answer : PlaceAnswer} (idle : Idle cancelled) (valid : ValidAnswer cancelled.child.size answer)
    (now : ℚ) {child : Child} (same : child.size = cancelled.child.size ∧ child.filledSize = cancelled.child.filledSize ∧
      child.averageFillPrice = cancelled.child.averageFillPrice) :
    Sound (submitChildOrder now { cancelled with child := child } answer) := by
  obtain ⟨size, filled, average⟩ := same
  have again : Idle { cancelled with child := child } :=
    ⟨size ▸ idle.size, filled.trans idle.filled, average.trans idle.average, idle.working, idle.stray, idle.fills⟩
  apply submit_sound again now
  show ValidAnswer child.size answer
  rw [size]
  exact valid

theorem escalatedChild_same (escalation : Escalation) (side : String) (mid : Option ℚ) (tick : ℚ) (child : Child) :
    (escalatedChild escalation side mid tick child).size = child.size ∧
      (escalatedChild escalation side mid tick child).filledSize = child.filledSize ∧
      (escalatedChild escalation side mid tick child).averageFillPrice = child.averageFillPrice := by
  unfold escalatedChild
  by_cases marketable : escalation.action = "marketable_ioc"
  · simp only [if_pos marketable, and_self]
  · by_cases widens : escalation.action = "widen_bps"
    · simp only [if_neg marketable, if_pos widens, and_self]
    · simp only [if_neg marketable, if_neg widens, and_self]

theorem resetTransient_same (child : Child) :
    (resetTransient child).size = child.size ∧ (resetTransient child).filledSize = child.filledSize ∧
      (resetTransient child).averageFillPrice = child.averageFillPrice := ⟨rfl, rfl, rfl⟩

theorem escalate_sound {escalation : Option Escalation} {side : String} {mid : Option ℚ} {tick now : ℚ} {cancel : Bool}
    {answer : PlaceAnswer} (sound : Sound slot) (valid : ValidAnswer slot.child.size answer)
    (safe : (∀ rule, escalation = some rule → rule.action ≠ "abort") → Resubmittable slot cancel) :
    Sound (escalateChildOrder escalation side mid tick now cancel answer slot) := by
  unfold escalateChildOrder
  cases escalation with
  | none => exact sound
  | some rule =>
    simp only
    split
    case isTrue acknowledged =>
      by_cases abort : rule.action = "abort"
      · rw [if_pos abort]
        have kept := cancel_sound sound cancel
        generalize cancelChildOrder slot cancel = cancelled at kept ⊢
        exact kept.touch _ rfl rfl rfl rfl nofun
      · rw [if_neg abort]
        have idle := cancelled_idle sound (safe fun other same => by cases same; exact abort) acknowledged
        rw [← cancel_child slot cancel] at valid
        generalize cancelChildOrder slot cancel = cancelled at idle valid ⊢
        apply resubmit_sound idle valid now
        obtain ⟨size, filled, average⟩ := resetTransient_same (escalatedChild rule side mid tick
          { cancelled.child with status := .escalated, escalationCount := cancelled.child.escalationCount + 1 })
        rw [size, filled, average]
        exact escalatedChild_same rule side mid tick _
    case isFalse => exact sound.touch _ rfl rfl rfl rfl fun planned => planned

theorem reprice_sound {price tick now : ℚ} {cancel : Bool} {answer : PlaceAnswer} (sound : Sound slot)
    (valid : ValidAnswer slot.child.size answer) (safe : Resubmittable slot cancel) :
    Sound (repriceChildOrder price tick now cancel answer slot) := by
  unfold repriceChildOrder
  generalize clampBinaryPrice price tick = newPrice
  split
  case isTrue acknowledged =>
    have idle := cancelled_idle sound safe acknowledged
    rw [← cancel_child slot cancel] at valid
    generalize cancelChildOrder slot cancel = cancelled at idle valid ⊢
    exact resubmit_sound idle valid now (resetTransient_same { cancelled.child with price := newPrice, status := .planned })
  case isFalse => exact sound.touch _ rfl rfl rfl rfl fun planned => planned

theorem submit_size_any (now : ℚ) (slot : Slot) (answer : PlaceAnswer) :
    (submitChildOrder now slot answer).child.size = slot.child.size := by
  cases answer with
  | raises error => rfl
  | result result => exact submit_size now slot result

theorem escalate_size (escalation : Option Escalation) (side : String) (mid : Option ℚ) (tick now : ℚ) (cancel : Bool)
    (answer : PlaceAnswer) (slot : Slot) :
    (escalateChildOrder escalation side mid tick now cancel answer slot).child.size = slot.child.size := by
  have sameChild : (cancelChildOrder slot cancel).child.size = slot.child.size := by rw [cancel_child]
  unfold escalateChildOrder
  cases escalation with
  | none => rfl
  | some rule =>
    simp only
    generalize cancelChildOrder slot cancel = cancelled at sameChild ⊢
    split
    case isTrue =>
      split
      case isTrue => exact sameChild
      case isFalse =>
        rw [submit_size_any]
        show (escalatedChild _ _ _ _ _).size = _
        rw [(escalatedChild_same _ _ _ _ _).1]
        exact sameChild
    case isFalse => rfl

theorem reprice_size (price tick now : ℚ) (cancel : Bool) (answer : PlaceAnswer) (slot : Slot) :
    (repriceChildOrder price tick now cancel answer slot).child.size = slot.child.size := by
  have sameChild : (cancelChildOrder slot cancel).child.size = slot.child.size := by rw [cancel_child]
  unfold repriceChildOrder
  generalize clampBinaryPrice price tick = newPrice
  split
  case isTrue =>
    generalize cancelChildOrder slot cancel = cancelled at sameChild ⊢
    rw [submit_size_any, (resetTransient_same _).1]
    exact sameChild
  case isFalse => rfl

theorem apply_size (pending : PendingExit) (pass : ExitPass) (slot : Slot) (step : ChildStep) :
    (step.apply pending pass slot).child.size = slot.child.size := by
  cases step with
  | submit index => exact submit_size_any _ _ _
  | escalate index => exact escalate_size _ _ _ _ _ _ _ _
  | reprice index mid => exact reprice_size _ _ _ _ _ _

def VenueAnswers (pending : PendingExit) (pass : ExitPass) : Prop :=
  ∀ index slot, pending.children[index]? = some slot → ValidAnswer slot.child.size (pass.onSubmit index) ∧
    ValidAnswer slot.child.size (pass.onEscalate index).2 ∧ ValidAnswer slot.child.size (pass.onReprice index).2

instance (size : ℚ) : ∀ answer, Decidable (ValidAnswer size answer)
  | .raises _ => isTrue trivial
  | .result result => inferInstanceAs (Decidable (0 ≤ result.rest ∧ result.fill + result.rest ≤ size))

instance (slot : Slot) (cancel : Bool) : Decidable (Resubmittable slot cancel) :=
  inferInstanceAs (Decidable (cancelAcknowledged slot cancel = true → _ ∧ (_ → _)))

instance : ∀ escalation : Option Escalation, Decidable (∀ rule, escalation = some rule → rule.action ≠ "abort")
  | none => isTrue nofun
  | some rule => decidable_of_iff (rule.action ≠ "abort")
      ⟨fun other _ same => Option.some.inj same ▸ other, fun all => all rule rfl⟩

/-- What `SafeStep` asks of the child. -/
def SafeChild (pass : ExitPass) (policy : PolicySnapshot) (slot : Slot) : ChildStep → Prop
  | .submit _ => True
  | .escalate index => (∀ rule, policy.escalation = some rule → rule.action ≠ "abort") → Resubmittable slot (pass.onEscalate index).1
  | .reprice index _ => Resubmittable slot (pass.onReprice index).1

instance (pass : ExitPass) (policy : PolicySnapshot) (slot : Slot) : ∀ step, Decidable (SafeChild pass policy slot step)
  | .submit _ => isTrue trivial
  | .escalate index => inferInstanceAs (Decidable ((∀ rule, policy.escalation = some rule → rule.action ≠ "abort") →
      Resubmittable slot (pass.onEscalate index).1))
  | .reprice index _ => inferInstanceAs (Decidable (Resubmittable slot (pass.onReprice index).1))

/-- A child that is resubmitted by a step has no fill, and no working order that could not be named. -/
def SafeStep (pass : ExitPass) (pending : PendingExit) (step : ChildStep) : Prop :=
  ∀ slot ∈ pending.children[step.index]?, SafeChild pass pending.policy slot step

instance (pass : ExitPass) (pending : PendingExit) (step : ChildStep) : Decidable (SafeStep pass pending step) :=
  inferInstanceAs (Decidable (∀ slot ∈ pending.children[step.index]?, SafeChild pass pending.policy slot step))

def AllSound (pending : PendingExit) : Prop := ∀ (index : ℕ) (slot : Slot), pending.children[index]? = some slot → Sound slot

theorem childStep_get (pass : ExitPass) (pending : PendingExit) (step : ChildStep) (index : ℕ) :
    (childStep pass pending step).children[index]? =
      if step.index = index then (pending.children[index]?).map fun slot => step.apply pending pass slot
      else pending.children[index]? := by
  rw [childStep, List.getElem?_modify]
  split_ifs <;> simp

theorem childStep_cases {pass : ExitPass} {step : ChildStep} {index : ℕ}
    (found : (childStep pass pending step).children[index]? = some slot) : ∃ before, pending.children[index]? = some before ∧
      (slot = before ∨ step.index = index ∧ slot = step.apply pending pass before) := by
  rw [childStep_get] at found
  split at found
  case isTrue own =>
    obtain ⟨before, held, rfl⟩ := Option.map_eq_some_iff.1 found
    exact ⟨before, held, Or.inr ⟨own, rfl⟩⟩
  case isFalse => exact ⟨slot, found, Or.inl rfl⟩

theorem childStep_answers {pass other : ExitPass} (step : ChildStep) (answers : VenueAnswers pending other) :
    VenueAnswers (childStep pass pending step) other := by
  intro index slot found
  obtain ⟨before, held, same | ⟨-, changed⟩⟩ := childStep_cases found
  · exact same ▸ answers index before held
  · rw [changed, apply_size]
    exact answers index before held

theorem childStep_sound {pass : ExitPass} {step : ChildStep} (sound : AllSound pending)
    (answers : VenueAnswers pending pass) (safe : SafeStep pass pending step)
    (planned : ∀ index, step = .submit index → ∀ slot, pending.children[index]? = some slot → slot.child.status = .planned) :
    AllSound (childStep pass pending step) := by
  intro index slot found
  obtain ⟨before, held, same | ⟨own, changed⟩⟩ := childStep_cases found
  · exact same ▸ sound index before held
  · rw [changed]
    subst own
    have soundBefore := sound _ before held
    obtain ⟨onSubmit, onEscalate, onReprice⟩ := answers _ before held
    have safeBefore := safe before (Option.mem_def.2 held)
    cases step with
    | submit index => exact submit_sound (soundBefore.planned (planned index rfl before held)) pass.now onSubmit
    | escalate index => exact escalate_sound soundBefore onEscalate safeBefore
    | reprice index mid => exact reprice_sound soundBefore onReprice safeBefore

theorem submits_sound {pass : ExitPass} (indexes : List ℕ) (nodup : indexes.Nodup) (sound : AllSound pending)
    (answers : VenueAnswers pending pass)
    (planned : ∀ index ∈ indexes, ∀ slot, pending.children[index]? = some slot → slot.child.status = .planned) :
    AllSound (run (childStep pass) pending (indexes.map .submit)) := by
  induction indexes generalizing pending with
  | nil => exact sound
  | cons index rest ih =>
    obtain ⟨fresh, nodupRest⟩ := List.nodup_cons.1 nodup
    rw [List.map_cons, run_cons]
    apply ih nodupRest
    · apply @childStep_sound pending pass (.submit index) sound answers (fun _ _ => True.intro)
      intro other same slot held
      cases same
      exact planned index List.mem_cons_self slot held
    · exact childStep_answers _ answers
    · intro other member slot held
      have different : ¬(ChildStep.submit index).index = other := by
        intro same
        subst same
        exact fresh member
      rw [childStep_get, if_neg different] at held
      exact planned other (List.mem_cons_of_mem _ member) slot held

theorem pick_spec (children : List Slot) (chosen : Child → Bool) : (pick children chosen).Nodup ∧
    ∀ index ∈ pick children chosen, ∀ slot, children[index]? = some slot → chosen slot.child = true := by
  constructor
  · have all : (children.zipIdx.map Prod.snd).Nodup := by
      rw [List.zipIdx_map_snd]
      exact List.nodup_range'
    exact all.sublist (List.filter_sublist.map _)
  · intro index member slot held
    obtain ⟨entry, listed, rfl⟩ := List.mem_map.1 member
    obtain ⟨inside, good⟩ := List.mem_filter.1 listed
    rw [List.mem_zipIdx_iff_getElem?] at inside
    rw [inside] at held
    cases held
    exact good

def SafePass (pending : PendingExit) (pass : ExitPass) : Prop := Meets (childStep pass) (SafeStep pass) pending (passSteps pending pass)

theorem runExitPass_sound {pass : ExitPass} (sound : AllSound pending) (answers : VenueAnswers pending pass)
    (safe : SafePass pending pass) : AllSound (runExitPass pending pass) := by
  unfold SafePass passSteps at safe
  unfold runExitPass passSteps
  simp only at safe ⊢
  rw [List.append_assoc] at safe ⊢
  obtain ⟨-, later⟩ := safe.of_append
  obtain ⟨nodup, chosen⟩ := pick_spec pending.children fun child => child.status = .planned
  have sub : ((pickChildrenToSubmit pending pass.budget.submits).take pass.budget.submits.toNat).Sublist
      (pick pending.children fun child => child.status = .planned) :=
    (List.take_sublist _ _).trans (List.take_sublist _ _)
  have submitted : AllSound (run (childStep pass) pending (submitSteps pending pass)) := by
    apply submits_sound _ (nodup.sublist sub) sound answers
    intro index member slot held
    simpa using chosen index (sub.subset member) slot held
  have answered : VenueAnswers (run (childStep pass) pending (submitSteps pending pass)) pass :=
    @Runs.invariant_all _ _ (childStep pass) (fun state => VenueAnswers state pass) (fun _ step held => childStep_answers step held)
      pending answers _
  rw [run_append]
  -- the other phases submit only what they have cancelled
  generalize run (childStep pass) pending (submitSteps pending pass) = state at later submitted answered
  have others : ∀ step ∈ escalateSteps state pass ++ repriceSteps (run (childStep pass) state (escalateSteps state pass)) pass,
      ∀ index, step ≠ .submit index := by
    intro step member index same
    subst same
    cases List.mem_append.1 member with
    | inl escalates =>
      obtain ⟨_, -, equal⟩ := List.mem_map.1 escalates
      cases equal
    | inr reprices =>
      unfold repriceSteps at reprices
      split at reprices
      · cases reprices
      · split at reprices
        · obtain ⟨_, -, equal⟩ := List.mem_map.1 reprices
          cases equal
        · cases reprices
  have steps := later.and (Meets.of_mem others state)
  have kept : AllSound _ ∧ VenueAnswers _ pass := Runs.invariant
    (fun pending step (held : AllSound pending ∧ VenueAnswers pending pass) ok =>
      ⟨childStep_sound held.1 held.2 ok.1 fun index same => absurd same (ok.2 index), childStep_answers step held.2⟩)
    ⟨submitted, answered⟩ steps
  exact kept.1

theorem childStep_sizes (pass : ExitPass) (pending : PendingExit) (step : ChildStep) :
    (childStep pass pending step).children.map (fun slot => slot.child.size) = pending.children.map (fun slot => slot.child.size) := by
  apply List.ext_getElem?
  intro index
  rw [List.getElem?_map, List.getElem?_map, childStep_get]
  split
  case isTrue =>
    rw [Option.map_map]
    congr 1
    funext slot
    exact apply_size pending pass slot step
  case isFalse => rfl

theorem runExitPass_sizes (pending : PendingExit) (pass : ExitPass) :
    (runExitPass pending pass).children.map (fun slot => slot.child.size) = pending.children.map (fun slot => slot.child.size) ∧
      (runExitPass pending pass).targetSize = pending.targetSize :=
  @Runs.invariant_all _ _ (childStep pass)
    (fun state => state.children.map (fun slot => slot.child.size) = pending.children.map (fun slot => slot.child.size) ∧
      state.targetSize = pending.targetSize)
    (fun state step held => ⟨(childStep_sizes pass state step).trans held.1, held.2⟩) pending ⟨rfl, rfl⟩ _

def PendingExit.fills (pending : PendingExit) : List (ℚ × ℚ) := pending.children.flatMap Slot.fills

/-- What is filled and what still rests at the venue, over all children. -/
def PendingExit.exposure (pending : PendingExit) : ℚ :=
  (pending.children.map fun slot => fillSize slot.fills + slot.working + slot.stray).sum

def Active (child : Child) : Prop := child.status = .planned ∨ isWorking child = true

/-- The exit stays within its target, and its totals are those of the venue. -/
structure ExitSound (pending : PendingExit) : Prop where
  exposure : pending.exposure ≤ pending.targetSize
  filled : ∀ slot ∈ pending.children, slot.child.filledSize ≤ slot.child.size
  size : (aggregateChildrenFills (pending.children.map Slot.child)).filledSize = fillSize pending.fills
  notional : (aggregateChildrenFills (pending.children.map Slot.child)).filledNotional = fillNotional pending.fills
  average : (aggregateChildrenFills (pending.children.map Slot.child)).averageFillPrice =
    if 0 < fillSize pending.fills then fillNotional pending.fills / fillSize pending.fills else 0
  complete : isExitComplete pending = true →
    pending.targetSize ≤ fillSize pending.fills ∨ ∀ slot ∈ pending.children, ¬Active slot.child

/-- The fills never stop short of the target within the tolerance of the completion check. -/
def NotNearlyFilled (pending : PendingExit) : Prop :=
  pending.targetSize ≤ fillSize pending.fills + 1 / 10 ^ 9 → pending.targetSize ≤ fillSize pending.fills

instance (pending : PendingExit) : Decidable (NotNearlyFilled pending) := inferInstanceAs (Decidable (_ → _))

theorem fillSize_append (first second : List (ℚ × ℚ)) : fillSize (first ++ second) = fillSize first + fillSize second := by
  simp [fillSize]

theorem fillNotional_append (first second : List (ℚ × ℚ)) :
    fillNotional (first ++ second) = fillNotional first + fillNotional second := by
  simp [fillNotional]

theorem aggregate_totals (slots : List Slot) (sound : ∀ slot ∈ slots, Sound slot) (totals : ℚ × ℚ) :
    (slots.map Slot.child).foldl aggregateOne totals =
      (totals.1 + fillSize (slots.flatMap Slot.fills), totals.2 + fillNotional (slots.flatMap Slot.fills)) := by
  induction slots generalizing totals with
  | nil => simp [fillSize, fillNotional]
  | cons slot rest ih =>
    have own := sound slot List.mem_cons_self
    have single : aggregateOne totals slot.child = (totals.1 + fillSize slot.fills, totals.2 + fillNotional slot.fills) := by
      unfold aggregateOne
      rw [max_eq_right own.nonneg]
      by_cases none_ : slot.child.filledSize ≤ 0
      · have zero : slot.child.filledSize = 0 := le_antisymm none_ own.nonneg
        rw [if_pos none_, (own.unfilled zero).2]
        simp [fillSize, fillNotional]
      · rw [if_neg none_, ← own.filled, ← own.notional]
    rw [List.map_cons, List.foldl_cons, single, ih fun other member => sound other (List.mem_cons_of_mem _ member),
      List.flatMap_cons, fillSize_append, fillNotional_append]
    simp only [add_assoc]

theorem exitSound_of (sound : AllSound pending)
    (sizes : (pending.children.map fun slot => slot.child.size).sum = pending.targetSize) (near : NotNearlyFilled pending) :
    ExitSound pending := by
  have members : ∀ slot ∈ pending.children, Sound slot := by
    intro slot member
    obtain ⟨index, held⟩ := List.getElem?_of_mem member
    exact sound index slot held
  have totals := aggregate_totals pending.children members (0, 0)
  have size : (aggregateChildrenFills (pending.children.map Slot.child)).filledSize = fillSize pending.fills := by
    unfold aggregateChildrenFills
    rw [totals]
    exact zero_add _
  have notional : (aggregateChildrenFills (pending.children.map Slot.child)).filledNotional = fillNotional pending.fills := by
    unfold aggregateChildrenFills
    rw [totals]
    exact zero_add _
  constructor
  · rw [← sizes]
    apply List.sum_le_sum
    intro slot member
    have own := members slot member
    have bound := own.bound
    rw [own.filled] at bound
    rw [own.stray, add_zero]
    exact bound
  · intro slot member
    have own := members slot member
    have bound := own.bound
    have working := own.working
    linarith
  · exact size
  · exact notional
  · unfold aggregateChildrenFills
    rw [totals]
    simp only [zero_add]
    rfl
  · intro complete
    unfold isExitComplete at complete
    simp only at complete
    split at complete
    case isTrue => cases complete
    case isFalse =>
      split at complete
      case isTrue filled =>
        left
        apply near
        rw [size] at filled
        exact (le_max_right _ _).trans filled.2
      case isFalse =>
        right
        intro slot member active
        have quiet := (List.all_eq_true.1 complete) slot member
        rw [Bool.not_eq_true', Bool.or_eq_false_iff, Bool.or_eq_false_iff, decide_eq_false_iff_not] at quiet
        cases active with
        | inl planned => exact quiet.1.1 planned
        | inr working => exact absurd working (by rw [quiet.1.2]; exact Bool.false_ne_true)

/-- The children as they are built: planned, with nothing at the venue, their sizes adding up to the target. -/
structure Fresh (pending : PendingExit) : Prop where
  planned : ∀ slot ∈ pending.children, slot.child.status = .planned ∧ Idle slot
  sizes : (pending.children.map fun slot => slot.child.size).sum = pending.targetSize

theorem fresh_sound (fresh : Fresh pending) : AllSound pending := by
  intro index slot held
  obtain ⟨-, idle⟩ := fresh.planned slot (List.mem_of_getElem? held)
  obtain ⟨size, filled, average, working, stray, fills⟩ := idle
  constructor
  · exact size
  · exact working.ge
  · exact stray
  · exact filled.ge
  · rw [filled, working, add_zero]
    exact size
  · rw [filled, fills]
    rfl
  · rw [filled, fills, zero_mul]
    rfl
  · exact fun _ => ⟨average, fills⟩
  · exact fun _ => ⟨size, filled, average, working, stray, fills⟩

/-- While no child with a fill is resubmitted, no pass takes the exit over its target. -/
theorem exit_within_target {start : PendingExit} {passes : List ExitPass} (fresh : Fresh start)
    (answers : Meets runExitPass VenueAnswers start passes) (safe : Meets runExitPass SafePass start passes)
    (near : Always runExitPass NotNearlyFilled start passes) : Always runExitPass ExitSound start passes := by
  have keeps : ∀ pending pass, (AllSound pending ∧ (pending.children.map fun slot => slot.child.size).sum = pending.targetSize) →
      (VenueAnswers pending pass ∧ SafePass pending pass) → AllSound (runExitPass pending pass) ∧
        ((runExitPass pending pass).children.map fun slot => slot.child.size).sum = (runExitPass pending pass).targetSize := by
    intro pending pass held ok
    obtain ⟨sizes, target⟩ := runExitPass_sizes pending pass
    rw [sizes, target]
    exact ⟨runExitPass_sound held.1 ok.1 ok.2, held.2⟩
  have kept := Runs.always_of_meets keeps ⟨fresh_sound fresh, fresh.sizes⟩ (answers.and safe)
  intro first isPrefix
  exact exitSound_of (kept first isPrefix).1 (kept first isPrefix).2 (near first isPrefix)

section Ladder

/-- One child of ten, an order that is filled by four and rests, and a second pass that escalates it to the market. -/
def ladder : PendingExit where
  children := [{ child := { price := 1 / 2, size := 10 } }]
  targetSize := 10
  triggerPrice := none
  policy := { escalation := some ⟨"marketable_ioc", 5, 1, none⟩, repriceOnMidDriftBps := none, minRepriceIntervalSeconds := 1 }

def placed (status : String) (fill rest : ℚ) : PlaceAnswer := .result ⟨status, "o1", "c1", some fill, none, none, rest⟩

def ladderPass (now : ℚ) (fill rest : ℚ) : ExitPass where
  budget := ⟨8, 8, 8⟩
  now := now
  side := "SELL"
  currentMid := none
  tickSize := 1 / 100
  onSubmit _ := placed "open" fill rest
  onEscalate _ := (true, placed "executed" 10 0)
  onReprice _ := (true, .raises "")

theorem ladder_fresh : Fresh ladder where
  planned slot member := by
    rw [List.mem_singleton.1 member]
    exact ⟨rfl, by decide, rfl, rfl, rfl, rfl, rfl⟩
  sizes := by decide +kernel

theorem ladder_answers (sized : ∀ slot ∈ pending.children, slot.child.size = 10) (now : ℚ) {fill rest : ℚ}
    (valid : ValidAnswer 10 (placed "open" fill rest)) : VenueAnswers pending (ladderPass now fill rest) := by
  intro index slot held
  have executed : ValidAnswer 10 (placed "executed" 10 0) := by decide +kernel
  rw [sized slot (List.mem_of_getElem? held)]
  exact ⟨valid, executed, trivial⟩

def restingPasses : List ExitPass := [ladderPass 0 0 10, ladderPass 10 0 10]

theorem exit_within_target_resting : Always runExitPass ExitSound ladder restingPasses := by
  have answers : Meets runExitPass VenueAnswers ladder restingPasses :=
    ⟨ladder_answers (by decide +kernel) 0 (by decide +kernel), ladder_answers (by decide +kernel) 10 (by decide +kernel), trivial⟩
  have safe : Meets runExitPass SafePass ladder restingPasses := by
    unfold SafePass
    decide +kernel
  have near : Always runExitPass NotNearlyFilled ladder restingPasses := by
    rw [restingPasses, Runs.always_cons, Runs.always_cons]
    refine ⟨by decide +kernel, by decide +kernel, ?_⟩
    intro first isPrefix
    rw [List.prefix_nil.1 isPrefix]
    decide +kernel
  exact exit_within_target ladder_fresh answers safe near

/-- The order is filled by four of ten before it is escalated, and ten are sent again. -/
theorem escalation_exits_twice : Fresh ladder ∧ Meets runExitPass VenueAnswers ladder [ladderPass 0 4 6, ladderPass 10 4 6] ∧
    ¬ExitSound (run runExitPass ladder [ladderPass 0 4 6, ladderPass 10 4 6]) := by
  have answers : Meets runExitPass VenueAnswers ladder [ladderPass 0 4 6, ladderPass 10 4 6] :=
    ⟨ladder_answers (by decide +kernel) 0 (by decide +kernel), ladder_answers (by decide +kernel) 10 (by decide +kernel), trivial⟩
  have exposed : ¬(run runExitPass ladder [ladderPass 0 4 6, ladderPass 10 4 6]).exposure ≤
      (run runExitPass ladder [ladderPass 0 4 6, ladderPass 10 4 6]).targetSize := by decide +kernel
  exact ⟨ladder_fresh, answers, fun sound => exposed sound.exposure⟩

end Ladder

end Callisto.Exits
