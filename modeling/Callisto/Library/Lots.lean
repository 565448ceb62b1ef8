import Mathlib.Algebra.BigOperators.Group.List.Basic
import Mathlib.Algebra.Order.Group.MinMax
import Mathlib.Algebra.Order.BigOperators.Group.List
import Mathlib.Data.List.Induction
import Mathlib.Data.List.Sort
import Mathlib.Tactic.Abel

/-! A queue of labelled lots from which the oldest are taken first: what is taken and what is left, and what a run of deposits and
withdrawals matches with each other. -/

namespace Callisto.Library.Lots

section Positions

variable {ε : Type*} {events : List ε} {event : ε} {position : ℕ}

theorem getElem?_concat {found : ε} (here : events[position]? = some found) : (events ++ [event])[position]? = some found := by
  have inside := (List.getElem?_eq_some_iff.1 here).1
  rw [List.getElem?_append_left inside, here]

theorem getElem?_concat_cases {found : ε} (here : (events ++ [event])[position]? = some found) :
    events[position]? = some found ∧ position < events.length ∨ position = events.length ∧ event = found := by
  have inside := (List.getElem?_eq_some_iff.1 here).1
  rw [List.length_append, List.length_singleton] at inside
  by_cases older : position < events.length
  · rw [List.getElem?_append_left older] at here
    exact Or.inl ⟨here, older⟩
  · have last : position = events.length := by omega
    rw [last, List.getElem?_concat_length] at here
    exact Or.inr ⟨last, Option.some.inj here⟩

end Positions

variable {ι κ R : Type*} [AddCommGroup R]

def amount (good : ι → Prop) [DecidablePred good] (lots : List (ι × R)) : R :=
  ((lots.filter fun lot => good lot.1).map Prod.snd).sum

def total (lots : List (ι × R)) : R := (lots.map Prod.snd).sum

section Amounts

variable {good : ι → Prop} [DecidablePred good]

@[simp] theorem amount_nil : amount good ([] : List (ι × R)) = 0 := rfl

theorem amount_cons (lot : ι × R) (lots : List (ι × R)) : amount good (lot :: lots) = (if good lot.1 then lot.2 else 0) + amount good lots := by
  unfold amount
  by_cases counted : good lot.1
  · rw [List.filter_cons_of_pos (by simpa using counted), if_pos counted, List.map_cons, List.sum_cons]
  · rw [List.filter_cons_of_neg (by simpa using counted), if_neg counted, zero_add]

theorem amount_append (first second : List (ι × R)) : amount good (first ++ second) = amount good first + amount good second := by
  unfold amount
  rw [List.filter_append, List.map_append, List.sum_append]

theorem amount_absent {lots : List (ι × R)} (absent : ∀ lot ∈ lots, ¬ good lot.1) : amount good lots = 0 := by
  unfold amount
  rw [List.filter_eq_nil_iff.2 fun lot member => by simpa using absent lot member]
  rfl

theorem amount_true (lots : List (ι × R)) : amount (fun _ => True) lots = total lots := by
  unfold amount total
  rw [List.filter_eq_self.2 fun _ _ => decide_eq_true trivial]

end Amounts

variable [LinearOrder R]

/-- What a withdrawal takes of each lot, oldest first, and the lots that stay. -/
def take : R → List (ι × R) → List (ι × R) × List (ι × R)
  | _, [] => ([], [])
  | wanted, lot :: rest =>
    if 0 < wanted then
      if lot.2 ≤ wanted then (lot :: (take (wanted - lot.2) rest).1, (take (wanted - lot.2) rest).2)
      else ([(lot.1, wanted)], (lot.1, lot.2 - wanted) :: rest)
    else ([], lot :: rest)

theorem take_conserves (good : ι → Prop) [DecidablePred good] (wanted : R) (lots : List (ι × R)) :
    amount good (take wanted lots).1 + amount good (take wanted lots).2 = amount good lots := by
  induction lots generalizing wanted with
  | nil => exact add_zero _
  | cons lot rest ih =>
    unfold take
    split_ifs with open_ spent
    · rw [amount_cons, amount_cons, add_assoc, ih]
    · simp only [amount_cons, amount_nil]
      split_ifs <;> abel
    · rw [amount_nil, zero_add]

theorem take_sublists (wanted : R) (lots : List (ι × R)) : ((take wanted lots).1.map Prod.fst).Sublist (lots.map Prod.fst) ∧
    ((take wanted lots).2.map Prod.fst).Sublist (lots.map Prod.fst) := by
  induction lots generalizing wanted with
  | nil => exact ⟨List.Sublist.refl _, List.Sublist.refl _⟩
  | cons lot rest ih =>
    unfold take
    split_ifs with open_ spent
    · exact ⟨(ih _).1.cons_cons _, (ih _).2.cons _⟩
    · exact ⟨(List.nil_sublist _).cons_cons _, List.Sublist.refl _⟩
    · exact ⟨List.nil_sublist _, List.Sublist.refl _⟩

theorem take_before [Preorder ι] (wanted : R) {lots : List (ι × R)} (sorted : (lots.map Prod.fst).Pairwise (· < ·)) :
    ∀ taken ∈ (take wanted lots).1, ∀ left ∈ (take wanted lots).2, taken.1 ≤ left.1 := by
  induction lots generalizing wanted with
  | nil => exact fun _ member => (nomatch member)
  | cons lot rest ih =>
    have ⟨oldest, later⟩ := List.pairwise_cons.1 sorted
    have older : ∀ label ∈ lot.1 :: rest.map Prod.fst, lot.1 ≤ label := by
      intro label member
      cases List.mem_cons.1 member with
      | inl same => exact same ▸ le_rfl
      | inr inside => exact (oldest label inside).le
    unfold take
    split_ifs with open_ spent
    · intro taken member left kept
      cases List.mem_cons.1 member with
      | inl same =>
        have known := (take_sublists (wanted - lot.2) rest).2.subset (List.mem_map_of_mem kept)
        exact same ▸ (oldest left.1 known).le
      | inr inside => exact ih (wanted - lot.2) later taken inside left kept
    · intro taken member left kept
      have label := List.mem_map_of_mem (f := Prod.fst) kept
      rw [List.mem_singleton.1 member]
      exact older left.1 label
    · exact fun _ member => (nomatch member)

section Positive

variable [IsOrderedAddMonoid R]

theorem take_pos (wanted : R) {lots : List (ι × R)} (positive : ∀ lot ∈ lots, 0 < lot.2) :
    (∀ taken ∈ (take wanted lots).1, 0 < taken.2) ∧ ∀ left ∈ (take wanted lots).2, 0 < left.2 := by
  induction lots generalizing wanted with
  | nil => exact ⟨fun _ member => (nomatch member), fun _ member => (nomatch member)⟩
  | cons lot rest ih =>
    have ⟨head, others⟩ := List.forall_mem_cons.1 positive
    unfold take
    split_ifs with open_ spent
    · exact ⟨List.forall_mem_cons.2 ⟨head, (ih _ others).1⟩, (ih _ others).2⟩
    · exact ⟨List.forall_mem_singleton.2 open_, List.forall_mem_cons.2 ⟨sub_pos.2 (not_le.1 spent), others⟩⟩
    · exact ⟨fun _ member => (nomatch member), positive⟩

theorem take_total {wanted : R} (nonneg : 0 ≤ wanted) {lots : List (ι × R)} (positive : ∀ lot ∈ lots, 0 < lot.2) :
    total (take wanted lots).1 = min wanted (total lots) := by
  induction lots generalizing wanted with
  | nil => exact (min_eq_right nonneg).symm
  | cons lot rest ih =>
    have ⟨head, others⟩ := List.forall_mem_cons.1 positive
    have remainder : 0 ≤ total rest := List.sum_nonneg fun held member =>
      have ⟨other, inside, same⟩ := List.mem_map.1 member
      same ▸ (others other inside).le
    unfold take
    split_ifs with open_ spent
    · have later := ih (sub_nonneg.2 spent) others
      unfold total at later ⊢
      rw [List.map_cons, List.sum_cons, later, List.map_cons, List.sum_cons, ← min_add_add_left, add_sub_cancel]
    · have enough : wanted ≤ total (lot :: rest) := (not_le.1 spent).le.trans (le_add_of_nonneg_right remainder)
      rw [min_eq_left enough]
      exact add_zero wanted
    · have whole : 0 ≤ total (lot :: rest) := add_nonneg head.le remainder
      rw [le_antisymm (not_lt.1 open_) nonneg, min_eq_left whole]
      rfl

end Positive

section Runs

inductive Event (R : Type*) where
  | put (size : R)
  | draw (wanted : R)

def Event.size : Event R → R
  | .put size => size
  | .draw wanted => wanted

/-- How much of a deposit a withdrawal took; both are known by their positions in the run. -/
structure Match (R : Type*) where
  source : ℕ
  drain : ℕ
  size : R

omit [AddCommGroup R] [LinearOrder R] in
theorem mem_taken {lots : List (ℕ × R)} {drain : ℕ} {pair : Match R} (made : pair ∈ lots.map fun lot => ⟨lot.1, drain, lot.2⟩) :
    (pair.source, pair.size) ∈ lots ∧ pair.drain = drain := by
  have ⟨lot, member, same⟩ := List.mem_map.1 made
  rw [← same]
  exact ⟨member, rfl⟩

structure Matching (R : Type*) where
  made : List (Match R) := []
  queue : List (ℕ × R) := []

namespace Matching

def step (matching : Matching R) (entry : Event R × ℕ) : Matching R :=
  match entry.1 with
  | .put size => { matching with queue := matching.queue ++ [(entry.2, size)] }
  | .draw wanted =>
    { made := matching.made ++ (take wanted matching.queue).1.map fun lot => ⟨lot.1, entry.2, lot.2⟩
      queue := (take wanted matching.queue).2 }

def of (events : List (Event R)) : Matching R := events.zipIdx.foldl step {}

def matchedFrom (matching : Matching R) (source : ℕ) : R := amount (· = source) (matching.made.map fun pair => (pair.source, pair.size))

def matchedTo (matching : Matching R) (drain : ℕ) : R := amount (· = drain) (matching.made.map fun pair => (pair.drain, pair.size))

end Matching

/-- What a run holds: a withdrawal takes what it wants, or all there is. -/
def held (events : List (Event R)) : R :=
  events.foldl (fun amount event =>
    match event with
    | .put size => amount + size
    | .draw wanted => amount - min wanted amount) 0

/-- The deposits are matched oldest first, each withdrawal with what was deposited before it. -/
structure Fifo (events : List (Event R)) (matching : Matching R) : Prop where
  ordered : matching.made.Pairwise fun first second => first.source ≤ second.source ∧ first.drain ≤ second.drain
  matched : ∀ pair ∈ matching.made, 0 < pair.size ∧ pair.source < pair.drain ∧ (∃ size, events[pair.source]? = some (.put size)) ∧
    ∃ wanted, events[pair.drain]? = some (.draw wanted)
  queued : ∀ lot ∈ matching.queue, 0 < lot.2 ∧ ∃ size, events[lot.1]? = some (.put size)
  sorted : (matching.queue.map Prod.fst).Pairwise (· < ·)
  before : ∀ pair ∈ matching.made, ∀ lot ∈ matching.queue, pair.source ≤ lot.1
  put_total : ∀ (source : ℕ) (size : R), events[source]? = some (.put size) →
    matching.matchedFrom source + amount (· = source) matching.queue = size
  draw_total : ∀ (drain : ℕ) (wanted : R), events[drain]? = some (.draw wanted) →
    matching.matchedTo drain = min wanted (held (events.take drain))
  held_eq : total matching.queue = held events

variable {events : List (Event R)} {matching : Matching R}

theorem Fifo.lt_of_mem (sound : Fifo events matching) {lot : ℕ × R} (member : lot ∈ matching.queue) : lot.1 < events.length :=
  have ⟨_, found⟩ := (sound.queued lot member).2
  (List.getElem?_eq_some_iff.1 found).1

theorem Fifo.source_lt (sound : Fifo events matching) {pair : Match R} (made : pair ∈ matching.made) : pair.source < events.length :=
  have ⟨_, _, ⟨_, found⟩, _⟩ := sound.matched pair made
  (List.getElem?_eq_some_iff.1 found).1

theorem Fifo.drain_lt (sound : Fifo events matching) {pair : Match R} (made : pair ∈ matching.made) : pair.drain < events.length :=
  have ⟨_, _, _, _, found⟩ := sound.matched pair made
  (List.getElem?_eq_some_iff.1 found).1

theorem held_put (events : List (Event R)) (size : R) : held (events ++ [.put size]) = held events + size := by
  unfold held
  rw [List.foldl_append]
  rfl

theorem held_draw (events : List (Event R)) (wanted : R) : held (events ++ [.draw wanted]) = held events - min wanted (held events) := by
  unfold held
  rw [List.foldl_append]
  rfl

theorem Fifo.matched_later (sound : Fifo events matching) (event : Event R) : ∀ pair ∈ matching.made, 0 < pair.size ∧ pair.source < pair.drain ∧
    (∃ size, (events ++ [event])[pair.source]? = some (.put size)) ∧ ∃ wanted, (events ++ [event])[pair.drain]? = some (.draw wanted) := by
  intro pair made
  have ⟨positive, earlier, ⟨size, source⟩, wanted, drain⟩ := sound.matched pair made
  exact ⟨positive, earlier, ⟨size, getElem?_concat source⟩, wanted, getElem?_concat drain⟩

theorem Fifo.exhausted (sound : Fifo events matching) {pair : Match R} (made : pair ∈ matching.made) {source : ℕ} {size : R}
    (older : source < pair.source) (found : events[source]? = some (.put size)) : matching.matchedFrom source = size := by
  have absent : amount (· = source) matching.queue = 0 := by
    apply amount_absent
    intro lot member same
    have later := sound.before pair made lot member
    omega
  have whole := sound.put_total source size found
  rwa [absent, add_zero] at whole

theorem Fifo.put {size : R} (sound : Fifo events matching) (positive : 0 < size) :
    Fifo (events ++ [.put size]) (matching.step (.put size, events.length)) := by
  constructor
  case ordered => exact sound.ordered
  case matched => exact sound.matched_later _
  case queued =>
    intro lot member
    cases List.mem_append.1 member with
    | inl older =>
      have ⟨held, deposit, found⟩ := sound.queued lot older
      exact ⟨held, deposit, getElem?_concat found⟩
    | inr last =>
      rw [List.mem_singleton.1 last]
      exact ⟨positive, size, List.getElem?_concat_length⟩
  case sorted =>
    show ((matching.queue ++ [(events.length, size)]).map Prod.fst).Pairwise (· < ·)
    rw [List.map_append, List.pairwise_append]
    refine ⟨sound.sorted, List.pairwise_singleton _ _, ?_⟩
    intro older member label last
    have ⟨lot, inside, same⟩ := List.mem_map.1 member
    rw [List.mem_singleton.1 last, ← same]
    exact sound.lt_of_mem inside
  case before =>
    intro pair made lot member
    cases List.mem_append.1 member with
    | inl older => exact sound.before pair made lot older
    | inr last =>
      rw [List.mem_singleton.1 last]
      exact (sound.source_lt made).le
  case put_total =>
    intro source deposit found
    show matching.matchedFrom source + amount (· = source) (matching.queue ++ [(events.length, size)]) = deposit
    rw [amount_append, amount_cons, amount_nil, add_zero]
    cases getElem?_concat_cases found with
    | inl older =>
      rw [if_neg older.2.ne', add_zero]
      exact sound.put_total source deposit older.1
    | inr last =>
      have matched : matching.matchedFrom source = 0 := by
        apply amount_absent
        intro entry member same
        have ⟨pair, made, entry_eq⟩ := List.mem_map.1 member
        have earlier := sound.source_lt made
        rw [← entry_eq] at same
        omega
      have queued : amount (· = source) matching.queue = 0 := amount_absent fun lot member same =>
        absurd (sound.lt_of_mem member) (by omega)
      have deposited := last.2
      cases deposited
      rw [matched, queued, if_pos last.1.symm, zero_add, zero_add]
  case draw_total =>
    intro drain wanted found
    cases getElem?_concat_cases found with
    | inl older =>
      rw [List.take_append_of_le_length older.2.le]
      exact sound.draw_total drain wanted older.1
    | inr last => exact absurd last.2 nofun
  case held_eq =>
    rw [held_put, ← sound.held_eq]
    show total (matching.queue ++ [(events.length, size)]) = _
    unfold total
    rw [List.map_append, List.sum_append, List.map_singleton, List.sum_singleton]

variable [IsOrderedAddMonoid R]

theorem Fifo.draw {wanted : R} (sound : Fifo events matching) (positive : 0 < wanted) :
    Fifo (events ++ [.draw wanted]) (matching.step (.draw wanted, events.length)) := by
  have ⟨taken_labels, left_labels⟩ := take_sublists wanted matching.queue
  have sizes : ∀ lot ∈ matching.queue, 0 < lot.2 := fun lot member => (sound.queued lot member).1
  have ⟨taken_pos, left_pos⟩ := take_pos wanted sizes
  have taken_total := take_total positive.le sizes
  have conserved (good : ℕ → Prop) [DecidablePred good] := take_conserves good wanted matching.queue
  have older := take_before wanted sound.sorted
  have step : matching.step (.draw wanted, events.length) =
    { made := matching.made ++ (take wanted matching.queue).1.map fun lot => ⟨lot.1, events.length, lot.2⟩
      queue := (take wanted matching.queue).2 } := rfl
  rw [step]
  generalize take wanted matching.queue = result at *
  have ⟨taken, left⟩ := result
  dsimp only at *
  have taken_known : ∀ lot ∈ taken, ∃ size, (lot.1, size) ∈ matching.queue := by
    intro lot member
    have ⟨origin, known, same⟩ := List.mem_map.1 (taken_labels.subset (List.mem_map_of_mem member))
    exact ⟨origin.2, same ▸ known⟩
  constructor
  case ordered =>
    rw [List.pairwise_append]
    refine ⟨sound.ordered, ?_, ?_⟩
    · rw [List.pairwise_map]
      have rising := List.pairwise_map.1 (sound.sorted.sublist taken_labels)
      exact rising.imp fun less => ⟨less.le, le_rfl⟩
    · intro first made second last
      have ⟨member, drain⟩ := mem_taken last
      have ⟨size, known⟩ := taken_known _ member
      exact ⟨sound.before first made _ known, drain ▸ (sound.drain_lt made).le⟩
  case matched =>
    intro pair made
    cases List.mem_append.1 made with
    | inl before => exact sound.matched_later _ pair before
    | inr last =>
      have ⟨member, drain⟩ := mem_taken last
      have ⟨size, known⟩ := taken_known _ member
      have ⟨_, deposit, found⟩ := sound.queued _ known
      exact ⟨taken_pos _ member, drain ▸ sound.lt_of_mem known, ⟨deposit, getElem?_concat found⟩, wanted,
        drain ▸ List.getElem?_concat_length⟩
  case queued =>
    intro lot member
    have ⟨origin, known, same⟩ := List.mem_map.1 (left_labels.subset (List.mem_map_of_mem member))
    have ⟨_, deposit, found⟩ := sound.queued origin known
    exact ⟨left_pos lot member, deposit, getElem?_concat (same ▸ found)⟩
  case sorted => exact sound.sorted.sublist left_labels
  case before =>
    intro pair made lot member
    have ⟨origin, known, same⟩ := List.mem_map.1 (left_labels.subset (List.mem_map_of_mem member))
    cases List.mem_append.1 made with
    | inl before => exact same ▸ sound.before pair before origin known
    | inr last => exact older _ (mem_taken last).1 lot member
  case put_total =>
    intro source deposit found
    cases getElem?_concat_cases found with
    | inl known =>
      have whole := sound.put_total source deposit known.1
      have split := conserved (· = source)
      unfold Matching.matchedFrom at whole ⊢
      rw [List.map_append, amount_append, List.map_map]
      have same : (taken.map ((fun pair : Match R => (pair.source, pair.size)) ∘ fun lot => ⟨lot.1, events.length, lot.2⟩)) = taken :=
        List.map_id' taken
      rw [same, add_assoc, split, whole]
    | inr last => exact absurd last.2 nofun
  case draw_total =>
    intro drain asked found
    unfold Matching.matchedTo
    rw [List.map_append, amount_append, List.map_map]
    cases getElem?_concat_cases found with
    | inl known =>
      have none : amount (· = drain) (taken.map ((fun pair : Match R => (pair.drain, pair.size)) ∘
          fun lot => ⟨lot.1, events.length, lot.2⟩)) = 0 := by
        apply amount_absent
        intro entry member same
        have ⟨lot, _, entry_eq⟩ := List.mem_map.1 member
        rw [← entry_eq] at same
        exact absurd same known.2.ne'
      rw [none, add_zero, List.take_append_of_le_length known.2.le]
      exact sound.draw_total drain asked known.1
    | inr last =>
      have none : amount (· = drain) (matching.made.map fun pair => (pair.drain, pair.size)) = 0 := by
        apply amount_absent
        intro entry member same
        have ⟨pair, made, entry_eq⟩ := List.mem_map.1 member
        have earlier := sound.drain_lt made
        rw [← entry_eq] at same
        omega
      have all : amount (· = drain) (taken.map ((fun pair : Match R => (pair.drain, pair.size)) ∘
          fun lot => ⟨lot.1, events.length, lot.2⟩)) = total taken := by
        unfold amount total
        rw [List.filter_eq_self.2, List.map_map]
        · rfl
        · intro entry member
          have ⟨lot, _, entry_eq⟩ := List.mem_map.1 member
          rw [← entry_eq]
          exact decide_eq_true last.1.symm
      have asked_eq := last.2
      cases asked_eq
      rw [none, all, zero_add, taken_total, sound.held_eq, last.1, List.take_left']
      rfl
  case held_eq =>
    have split := conserved fun _ => True
    rw [amount_true, amount_true, amount_true, taken_total, sound.held_eq] at split
    rw [held_draw]
    exact eq_sub_of_add_eq' split

theorem fifo_run (positive : ∀ event ∈ events, 0 < event.size) : Fifo events (Matching.of events) := by
  induction events using List.reverseRecOn with
  | nil =>
    exact ⟨List.Pairwise.nil, fun _ member => (nomatch member), fun _ member => (nomatch member), List.Pairwise.nil,
      fun _ member => (nomatch member), fun _ _ found => (nomatch found), fun _ _ found => (nomatch found), rfl⟩
  | append_singleton events event ih =>
    have earlier := ih fun other member => positive other (List.mem_append_left _ member)
    have now := positive event (List.mem_append_right _ List.mem_cons_self)
    have folded : Matching.of (events ++ [event]) = (Matching.of events).step (event, events.length) := by
      unfold Matching.of
      rw [List.zipIdx_append, List.foldl_append, Nat.zero_add]
      rfl
    rw [folded]
    cases event with
    | put size => exact earlier.put now
    | draw wanted => exact earlier.draw now

end Runs

end Callisto.Library.Lots
