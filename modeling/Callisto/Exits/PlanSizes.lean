import Callisto.Exits.PlanRungs

/-! Before its last pass the planner lays out the whole target, and a child falls short of the minimum notional only where nothing is left. -/

namespace Callisto.Exits.Planner

section Chunks

def Sound (floor : ℚ) (prices : List ℚ) (rung : RungChunks) : Prop :=
  rung.price ∈ prices ∧ (0 < rung.count → 0 < rung.chunk ∧ floor ≤ rung.price * rung.chunk)

variable {floor nominal target : ℚ} {prices : List ℚ}

theorem allot_sound (sized : 0 < nominal) (rungs : List Rung) (priced : ∀ rung ∈ rungs, rung.price ∈ prices ∧ 0 < rung.price)
    (rollForward : ℚ) : ∀ rung ∈ (allot floor nominal target rollForward rungs).1, Sound floor prices rung := by
  induction rungs generalizing rollForward with
  | nil => exact fun rung member => (nomatch member)
  | cons first rest ih =>
    have ⟨known, positive⟩ := priced first List.mem_cons_self
    have later := ih fun rung member => priced rung (List.mem_cons_of_mem _ member)
    unfold allot
    rw [if_pos positive]
    dsimp only
    split_ifs
    · intro rung member
      cases List.mem_cons.1 member with
      | inl same => exact same ▸ ⟨known, fun some => absurd some (lt_irrefl 0)⟩
      | inr inside => exact later _ rung inside
    · intro rung member
      cases List.mem_cons.1 member with
      | inl same =>
        have reaches : floor / first.price ≤ max nominal (floor / first.price) := le_max_right _ _
        rw [div_le_iff₀ positive, mul_comm] at reaches
        exact same ▸ ⟨known, fun _ => ⟨sized.trans_le (le_max_left _ _), reaches⟩⟩
      | inr inside => exact later _ rung inside

def Recounts (first second : List RungChunks) : Prop :=
  ∀ rung ∈ second, ∃ before ∈ first, rung.price = before.price ∧ rung.chunk = before.chunk ∧ (0 < rung.count → 0 < before.count)

theorem recounts_refl (perLevel : List RungChunks) : Recounts perLevel perLevel :=
  fun rung member => ⟨rung, member, rfl, rfl, id⟩

theorem Recounts.trans {first second third : List RungChunks} (start : Recounts first second) (next : Recounts second third) :
    Recounts first third := by
  intro rung member
  have ⟨middle, inside, price, chunk, counted⟩ := next rung member
  have ⟨before, known, priced, chunked, had⟩ := start middle inside
  exact ⟨before, known, price.trans priced, chunk.trans chunked, fun positive => had (counted positive)⟩

theorem Recounts.sound {first second : List RungChunks} (recounts : Recounts first second)
    (sound : ∀ rung ∈ first, Sound floor prices rung) : ∀ rung ∈ second, Sound floor prices rung := by
  intro rung member
  have ⟨before, known, price, chunk, counted⟩ := recounts rung member
  have ⟨priced, reaches⟩ := sound before known
  unfold Sound
  rw [price, chunk]
  exact ⟨priced, fun some => reaches (counted some)⟩

theorem Recounts.cons {first second : List RungChunks} (recounts : Recounts first second) {rung before : RungChunks}
    (price : rung.price = before.price) (chunk : rung.chunk = before.chunk) (counted : 0 < rung.count → 0 < before.count) :
    Recounts (before :: first) (rung :: second) := by
  intro other member
  cases List.mem_cons.1 member with
  | inl same => exact ⟨before, List.mem_cons_self, same ▸ price, same ▸ chunk, same ▸ counted⟩
  | inr inside =>
    have ⟨known, held, facts⟩ := recounts other inside
    exact ⟨known, List.mem_cons_of_mem _ held, facts⟩

theorem credit_recounts (rollForward : ℚ) (perLevel : List RungChunks) : Recounts perLevel (credit rollForward perLevel) := by
  induction perLevel with
  | nil => exact recounts_refl []
  | cons rung rest ih =>
    unfold credit
    split_ifs with some
    · exact (recounts_refl rest).cons rfl rfl fun _ => some
    · exact ih.cons rfl rfl id

theorem creditTrailing_recounts (rollForward : ℚ) (perLevel : List RungChunks) :
    Recounts perLevel (creditTrailing rollForward perLevel) := by
  unfold creditTrailing
  split_ifs
  · intro rung member
    have ⟨before, known, facts⟩ := credit_recounts rollForward perLevel.reverse rung (List.mem_reverse.1 member)
    exact ⟨before, List.mem_reverse.1 known, facts⟩
  · exact recounts_refl perLevel

theorem modify_recounts (perLevel : List RungChunks) (index : ℕ) :
    Recounts perLevel (perLevel.modify index fun rung => { rung with count := rung.count - 1 }) := by
  induction perLevel generalizing index with
  | nil => cases index <;> exact recounts_refl []
  | cons rung rest ih =>
    cases index with
    | zero => exact (recounts_refl rest).cons rfl rfl fun some => Nat.lt_of_lt_of_le some (Nat.sub_le _ _)
    | succ index => exact (ih index).cons rfl rfl id

theorem peel_recounts (surplus : ℕ) (perLevel : List RungChunks) : Recounts perLevel (peel surplus perLevel) := by
  induction surplus generalizing perLevel with
  | zero => exact recounts_refl perLevel
  | succ surplus ih =>
    unfold peel
    split
    · exact recounts_refl perLevel
    · exact (modify_recounts perLevel _).trans (ih _)

theorem totalChunks_modify (perLevel : List RungChunks) {index : ℕ} (some : 0 < countAt perLevel index) :
    totalChunks (perLevel.modify index fun rung => { rung with count := rung.count - 1 }) + 1 = totalChunks perLevel := by
  induction perLevel generalizing index with
  | nil => exact absurd some (lt_irrefl 0)
  | cons rung rest ih =>
    cases index with
    | zero =>
      have counted : 0 < rung.count := some
      simp only [totalChunks, List.modify_zero_cons, List.map_cons, List.sum_cons]
      omega
    | succ index =>
      have later : totalChunks _ + 1 = _ := @ih index some
      simp only [totalChunks, List.modify_succ_cons, List.map_cons, List.sum_cons] at later ⊢
      omega

theorem countAt_of_peeled {perLevel : List RungChunks} {index : ℕ} (found : peeled perLevel = some index) : 0 < countAt perLevel index := by
  have member := List.argmin_mem found
  exact of_decide_eq_true (List.mem_filter.1 member).2

theorem totalChunks_of_peeled {perLevel : List RungChunks} (none : peeled perLevel = none) : totalChunks perLevel = 0 := by
  have nowhere := List.argmin_eq_none.1 none
  refine List.sum_eq_zero fun count member => ?_
  have ⟨rung, inside, same⟩ := List.mem_map.1 member
  have ⟨index, below, held⟩ := List.getElem_of_mem inside
  have empty := List.filter_eq_nil_iff.1 nowhere index (List.mem_range.2 below)
  have counted : countAt perLevel index = rung.count := by
    unfold countAt
    rw [List.getElem?_eq_getElem below, held]
    rfl
  rw [counted] at empty
  rw [← same]
  simpa using empty

theorem totalChunks_peel (surplus : ℕ) (perLevel : List RungChunks) : totalChunks (peel surplus perLevel) ≤ totalChunks perLevel - surplus := by
  induction surplus generalizing perLevel with
  | zero => exact le_rfl
  | succ surplus ih =>
    unfold peel
    split
    case h_1 none =>
      rw [totalChunks_of_peeled none]
      exact Nat.zero_le _
    case h_2 index found =>
      have fewer := totalChunks_modify perLevel (countAt_of_peeled found)
      have later := ih (perLevel.modify index fun rung => { rung with count := rung.count - 1 })
      omega

def chunksOf (perLevel : List RungChunks) : List RungChunks :=
  perLevel.flatMap fun rung => if rung.chunk ≤ 0 then [] else List.replicate rung.count rung

theorem length_chunksOf (perLevel : List RungChunks) : (chunksOf perLevel).length ≤ totalChunks perLevel := by
  induction perLevel with
  | nil => exact le_rfl
  | cons rung rest ih =>
    have own : (if rung.chunk ≤ 0 then [] else List.replicate rung.count rung).length ≤ rung.count := by
      split_ifs
      · exact Nat.zero_le _
      · exact (List.length_replicate).le
    unfold chunksOf totalChunks at *
    rw [List.flatMap_cons, List.length_append, List.map_cons, List.sum_cons]
    omega

theorem chunk_sound {perLevel : List RungChunks} (sound : ∀ rung ∈ perLevel, Sound floor prices rung) {rung : RungChunks}
    (member : rung ∈ chunksOf perLevel) : rung.price ∈ prices ∧ 0 < rung.chunk ∧ floor ≤ rung.price * rung.chunk := by
  have ⟨other, known, inside⟩ := List.mem_flatMap.1 member
  split_ifs at inside
  · cases inside
  · have ⟨counted, same⟩ := List.mem_replicate.1 inside
    have ⟨priced, reaches⟩ := sound other known
    exact same ▸ ⟨priced, reaches (Nat.pos_of_ne_zero counted)⟩

end Chunks

section Placing

variable (orderType : ℕ → String × Bool)

/-- What is placed and what is left make up the size; a child is a full chunk, or nothing is left. -/
structure Placed (remaining : ℚ) (chunks : List RungChunks) (placed : List ChildPlan × ℚ) : Prop where
  total : (placed.1.map ChildPlan.size).sum + placed.2 = remaining
  left : 0 ≤ placed.2
  few : placed.1.length ≤ chunks.length
  sized : ∀ plan ∈ placed.1, 0 < plan.size
  full : ∀ plan ∈ placed.1, ∃ chunk ∈ chunks, plan.price = chunk.price ∧ (plan.size = chunk.chunk ∨ placed.2 = 0)

theorem Placed.left_zero {chunks : List RungChunks} {placed : List ChildPlan × ℚ} (sound : Placed 0 chunks placed) : placed.2 = 0 := by
  have sizes : 0 ≤ (placed.1.map ChildPlan.size).sum := by
    apply List.sum_nonneg
    intro size member
    have ⟨plan, inside, same⟩ := List.mem_map.1 member
    exact same ▸ (sound.sized plan inside).le
  linarith [sound.total, sound.left]

theorem place_placed {chunks : List RungChunks} (sized : ∀ chunk ∈ chunks, 0 < chunk.chunk) {remaining : ℚ} (nonneg : 0 ≤ remaining)
    (index : ℕ) : Placed remaining chunks (place orderType remaining index chunks) := by
  induction chunks generalizing remaining index with
  | nil => exact ⟨zero_add _, nonneg, le_rfl, fun _ member => (nomatch member), fun _ member => (nomatch member)⟩
  | cons chunk rest ih =>
    unfold place
    split_ifs with done
    · exact ⟨zero_add _, nonneg, Nat.zero_le _, fun _ member => (nomatch member), fun _ member => (nomatch member)⟩
    · have positive := sized chunk List.mem_cons_self
      have unsold : 0 ≤ remaining - min chunk.chunk remaining := sub_nonneg.2 (min_le_right _ _)
      have later := ih (fun other member => sized other (List.mem_cons_of_mem _ member)) unsold (index + 1)
      refine ⟨?_, later.left, Nat.succ_le_succ later.few, ?_, ?_⟩
      · have total := later.total
        simp only [List.map_cons, List.sum_cons]
        linarith
      · intro plan member
        cases List.mem_cons.1 member with
        | inl same => exact same ▸ lt_min positive (not_le.1 done)
        | inr inside => exact later.sized plan inside
      · intro plan member
        cases List.mem_cons.1 member with
        | inl same =>
          refine ⟨chunk, List.mem_cons_self, same ▸ rfl, ?_⟩
          cases le_total chunk.chunk remaining with
          | inl fits => exact Or.inl (same ▸ min_eq_left fits)
          | inr exceeds =>
            rw [min_eq_right exceeds, sub_self] at later
            exact Or.inr (by simpa only [min_eq_right exceeds, sub_self] using later.left_zero)
        | inr inside =>
          have ⟨other, known, facts⟩ := later.full plan inside
          exact ⟨other, List.mem_cons_of_mem _ known, facts⟩

end Placing

/-- The children before the last pass. One that falls short of the floor comes only where the sizes add up exactly. -/
structure Laid (request : ExitRequest) (prices : List ℚ) (plans : List ChildPlan) : Prop where
  priced : ∀ plan ∈ plans, plan.price ∈ prices
  sized : ∀ plan ∈ plans, 0 < plan.size
  few : (plans.length : ℤ) ≤ request.policy.maxChunks
  total : plans ≠ [] → |(plans.map ChildPlan.size).sum - request.targetSize| ≤ tolerance
  exact : (∃ plan ∈ plans, plan.price * plan.size + tolerance < request.minNotional) →
    (plans.map ChildPlan.size).sum = request.targetSize

section Layout

variable (lower upper : String → String) (request : ExitRequest)

theorem perLevel_sound {nominal : ℚ} (sized : 0 < nominal) (tick : 0 < request.tickSize) :
    ∀ rung ∈ request.perLevel lower upper nominal, Sound request.minNotional (request.uniquePrices upper) rung := by
  have priced : ∀ rung ∈ request.rungs lower upper, rung.price ∈ request.uniquePrices upper ∧ 0 < rung.price := by
    intro rung member
    have known := rung_price lower upper request member
    exact ⟨known, tick.trans_le (onTick_of_mem upper tick known).2⟩
  have sound := @allot_sound request.minNotional nominal request.targetSize (request.uniquePrices upper) sized _ priced 0
  unfold ExitRequest.perLevel
  exact ((creditTrailing_recounts _ _).trans (peel_recounts _ _)).sound sound

theorem perLevel_few (nominal : ℚ) (allowed : 1 ≤ request.policy.maxChunks) :
    (totalChunks (request.perLevel lower upper nominal) : ℤ) ≤ request.policy.maxChunks := by
  unfold ExitRequest.perLevel
  dsimp only
  generalize creditTrailing _ _ = credited
  have fewer := totalChunks_peel (totalChunks credited -
    (min request.policy.maxChunks (max 1 ⌈request.targetSize / nominal⌉)).toNat) credited
  omega

theorem attach_laid {chunks : List RungChunks} {prices : List ℚ} {placed : List ChildPlan × ℚ}
    (sound : Placed request.targetSize chunks placed)
    (reaches : ∀ chunk ∈ chunks, chunk.price ∈ prices ∧ request.minNotional ≤ chunk.price * chunk.chunk)
    (few : (chunks.length : ℤ) ≤ request.policy.maxChunks) : Laid request prices (attach placed) := by
  have ⟨plans, left⟩ := placed
  have ⟨total, leftover, counted, sized, full⟩ := sound
  dsimp only at total leftover counted sized full
  have priced : ∀ plan ∈ plans, plan.price ∈ prices := by
    intro plan member
    have ⟨origin, known, price, _⟩ := full plan member
    exact price ▸ (reaches origin known).1
  have short : ∀ plan ∈ plans, plan.price * plan.size + tolerance < request.minNotional → left = 0 := by
    intro plan member below
    have ⟨origin, known, price, kept⟩ := full plan member
    cases kept with
    | inl size =>
      have worth := (reaches origin known).2
      rw [price, size] at below
      linarith [tolerance_pos]
    | inr none => exact none
  cases plans with
  | nil =>
    have room : ((0 : ℕ) : ℤ) ≤ request.policy.maxChunks := (Int.natCast_nonneg chunks.length).trans few
    exact ⟨fun _ member => (nomatch member), fun _ member => (nomatch member), room, fun some => absurd rfl some,
      fun ⟨_, member, _⟩ => (nomatch member)⟩
  | cons inside rest =>
    simp only [List.length_cons, List.map_cons, List.sum_cons] at counted total
    unfold attach
    dsimp only
    split_ifs with rounding
    · have whole : (({ inside with size := inside.size + left } :: rest).map ChildPlan.size).sum = request.targetSize := by
        simp only [List.map_cons, List.sum_cons]
        linarith
      refine ⟨?_, ?_, ?_, ?_, fun _ => whole⟩
      · intro plan member
        cases List.mem_cons.1 member with
        | inl same => exact same ▸ priced inside List.mem_cons_self
        | inr later => exact priced plan (List.mem_cons_of_mem _ later)
      · intro plan member
        cases List.mem_cons.1 member with
        | inl same => exact same ▸ add_pos_of_pos_of_nonneg (sized inside List.mem_cons_self) leftover
        | inr later => exact sized plan (List.mem_cons_of_mem _ later)
      · rw [List.length_cons]
        omega
      · intro _
        rw [whole, sub_self, abs_zero]
        exact tolerance_pos.le
    · refine ⟨priced, sized, ?_, ?_, ?_⟩
      · rw [List.length_cons]
        omega
      · intro _
        rw [List.map_cons, List.sum_cons, abs_le]
        constructor <;> linarith [tolerance_pos]
      · intro below
        have ⟨plan, member, under⟩ := below
        have none := short plan member under
        rw [List.map_cons, List.sum_cons]
        linarith

theorem chunked_laid {nominal : ℚ} (sized : 0 < nominal) (tick : 0 < request.tickSize) (allowed : 1 ≤ request.policy.maxChunks)
    (target : 0 < request.targetSize) : Laid request (request.uniquePrices upper) (request.chunked lower upper nominal) := by
  have sound := perLevel_sound lower upper request sized tick
  have few := perLevel_few lower upper request nominal allowed
  have chunks := length_chunksOf (request.perLevel lower upper nominal)
  have placed := place_placed (request.orderType upper (totalChunks (request.perLevel lower upper nominal)))
    (fun chunk member => (chunk_sound sound member).2.1) target.le 0
  have reaches : ∀ chunk ∈ chunksOf (request.perLevel lower upper nominal),
      chunk.price ∈ request.uniquePrices upper ∧ request.minNotional ≤ chunk.price * chunk.chunk := fun chunk member =>
    ⟨(chunk_sound sound member).1, (chunk_sound sound member).2.2⟩
  exact attach_laid request placed reaches (by omega)

theorem laddered_laid (allowed : 1 ≤ request.policy.maxChunks) (target : 0 < request.targetSize) :
    Laid request (request.uniquePrices upper) (request.laddered lower upper) := by
  have whole : ((request.laddered lower upper).map ChildPlan.size).sum = request.targetSize := by
    unfold ExitRequest.laddered
    dsimp only
    rw [List.map_map]
    have total := rungs_total lower upper request
    calc _ = (((request.rungs lower upper).map Rung.weight).map fun weight => weight * request.targetSize).sum := by
          rw [List.map_map]
          rfl
      _ = request.targetSize := by rw [sum_mul, total, one_mul]
  have few := rungs_length lower upper request
  have levels := (uniquePrices_length upper request).2
  have cap := levels_le request allowed
  refine ⟨?_, ?_, ?_, ?_, fun _ => whole⟩
  · intro plan member
    have ⟨rung, inside, same⟩ := List.mem_map.1 member
    exact same ▸ rung_price lower upper request inside
  · intro plan member
    have ⟨rung, inside, same⟩ := List.mem_map.1 member
    exact same ▸ mul_pos (rung_weight lower upper request inside) target
  · unfold ExitRequest.laddered
    rw [List.length_map]
    omega
  · intro _
    rw [whole, sub_self, abs_zero]
    exact tolerance_pos.le

theorem layout_laid (tick : 0 < request.tickSize) (allowed : 1 ≤ request.policy.maxChunks) (target : 0 < request.targetSize) :
    Laid request (request.uniquePrices upper) (request.layout lower upper) := by
  unfold ExitRequest.layout
  split
  case h_1 nominal found =>
    have sized := of_decide_eq_true (Option.filter_eq_some_iff.1 found).2
    exact chunked_laid lower upper request sized tick allowed target
  case h_2 => exact laddered_laid lower upper request allowed target

end Layout

end Callisto.Exits.Planner
