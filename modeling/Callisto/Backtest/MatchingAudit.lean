import Callisto.Backtest.MatchingAccounts
import Callisto.Backtest.MatchingOrders
import Callisto.Library.Runs

/-! The indexes of the matching engine: the count of active orders, the working lists and the fills on
record agree with the orders themselves in every state of a run. -/

namespace Callisto.Backtest

open Callisto.Library Callisto.Library.Runs

def BacktestOrder.IsResting (order : BacktestOrder) : Prop := order.state = .working ∨ order.state = .partially

instance (order : BacktestOrder) : Decidable order.IsResting := by
  unfold BacktestOrder.IsResting
  infer_instance

/-- The accounts of an order agree with its state. `ordered` says whether the ladders of the snapshots are known
to be sorted, on which only the size of an order to fill or kill depends. -/
structure BacktestOrder.Accounted (ordered : Prop) (order : BacktestOrder) : Prop extends order.Booked where
  sized : order.state = .rejected ∨ 0 < order.size
  bounded : order.filledSize ≤ max 0 order.size
  done : order.state = .filled → ordered ∨ order.tif ≠ .fok → order.remainingSize ≤ slack
  unfilled : order.state = .pending ∨ order.state = .rejected → order.fills = []
  atomic : order.tif = .fok → order.fills = [] ∧ ¬ order.IsResting ∨ order.state = .filled

namespace BacktestOrder

variable {ordered : Prop} {order old new : BacktestOrder}

theorem IsTerminal.not_resting (terminal : order.IsTerminal) : ¬ order.IsResting := by
  unfold IsTerminal at terminal
  unfold IsResting
  rcases terminal with state | state | state <;> rw [state] <;> decide

theorem IsTerminal.not_pending (terminal : order.IsTerminal) : order.state ≠ .pending := by
  unfold IsTerminal at terminal
  rcases terminal with state | state | state <;> rw [state] <;> decide

theorem IsResting.not_pending (resting : order.IsResting) : order.state ≠ .pending := by
  unfold IsResting at resting
  rcases resting with state | state <;> rw [state] <;> decide

theorem resting_of_live (live : ¬ order.IsTerminal) (admitted : order.state ≠ .pending) : order.IsResting := by
  unfold IsTerminal at live
  unfold IsResting
  cases state : order.state with
  | pending => exact absurd state admitted
  | working => exact Or.inl rfl
  | partially => exact Or.inr rfl
  | filled => exact absurd (Or.inl state) live
  | cancelled => exact absurd (Or.inr (Or.inl state)) live
  | rejected => exact absurd (Or.inr (Or.inr state)) live

theorem Accounted.restate (accounted : old.Accounted ordered) (terms : new.toNewOrder = old.toNewOrder)
    (fills : new.fills = old.fills) (filled : new.filledSize = old.filledSize) (average : new.avgFillPrice = old.avgFillPrice)
    (sized : new.state = .rejected ∨ old.state ≠ .rejected) (done : new.state ≠ .filled ∨ old.state = .filled)
    (unfilled : new.state = .pending ∨ new.state = .rejected → old.state = .pending ∨ old.state = .rejected)
    (idle : old.tif = .fok → new.state = .filled ∨ old.state ≠ .filled ∧ (old.IsResting ∨ ¬ new.IsResting)) :
    new.Accounted ordered := by
  have booked : new.Booked := accounted.toBooked.congr terms fills filled average
  have remaining : new.remainingSize = old.remainingSize := by
    unfold remainingSize
    rw [terms, filled]
  refine ⟨booked, ?_, ?_, fun full => ?_, fun none_ => ?_, fun fok => ?_⟩
  · rcases sized with rejected | other
    · exact Or.inl rejected
    · rw [terms]
      exact Or.inr (accounted.sized.resolve_left other)
  · rw [filled, terms]
    exact accounted.bounded
  · rw [remaining, terms]
    exact accounted.done (done.resolve_left fun other => other full)
  · rw [fills]
    exact accounted.unfilled (unfilled none_)
  · rw [terms] at fok
    rcases idle fok with full | ⟨notFull, rests⟩
    · exact Or.inr full
    · obtain ⟨empty, notResting⟩ := (accounted.atomic fok).resolve_right notFull
      rw [fills]
      exact Or.inl ⟨empty, rests.resolve_left notResting⟩

theorem Accounted.note (accounted : old.Accounted ordered) (terms : new.toNewOrder = old.toNewOrder) (state : new.state = old.state)
    (fills : new.fills = old.fills) (filled : new.filledSize = old.filledSize) (average : new.avgFillPrice = old.avgFillPrice) :
    new.Accounted ordered := by
  have rests : new.IsResting ↔ old.IsResting := by
    unfold IsResting
    rw [state]
  apply accounted.restate terms fills filled average
  · rw [state]
    exact Classical.em _
  · rw [state]
    exact (Classical.em _).symm
  · rw [state]
    exact id
  · rw [state, rests]
    intro _
    rcases Classical.em (old.state = .filled) with full | other
    · exact Or.inl full
    · exact Or.inr ⟨other, Classical.em _⟩

theorem Accounted.cancelled (accounted : old.Accounted ordered) (terms : new.toNewOrder = old.toNewOrder)
    (state : new.state = .cancelled) (fills : new.fills = old.fills) (filled : new.filledSize = old.filledSize)
    (average : new.avgFillPrice = old.avgFillPrice) (notRejected : old.state ≠ .rejected) (notFilled : old.state ≠ .filled) :
    new.Accounted ordered := by
  apply accounted.restate terms fills filled average (Or.inr notRejected)
  · rw [state]
    exact Or.inl (by decide)
  · rw [state]
    intro impossible
    rcases impossible with same | same <;> cases same
  · intro _
    refine Or.inr ⟨notFilled, Or.inr ?_⟩
    unfold IsResting
    rw [state]
    decide

theorem Accounted.rejected (accounted : old.Accounted ordered) (terms : new.toNewOrder = old.toNewOrder)
    (state : new.state = .rejected) (fills : new.fills = old.fills) (filled : new.filledSize = old.filledSize)
    (average : new.avgFillPrice = old.avgFillPrice) (pending : old.state = .pending) : new.Accounted ordered := by
  apply accounted.restate terms fills filled average (Or.inl state)
  · rw [state]
    exact Or.inl (by decide)
  · exact fun _ => Or.inl pending
  · intro _
    refine Or.inr ⟨by rw [pending]; decide, Or.inr ?_⟩
    unfold IsResting
    rw [state]
    decide

theorem Accounted.atRest (accounted : old.Accounted ordered) (terms : new.toNewOrder = old.toNewOrder)
    (state : new.state = .working) (fills : new.fills = old.fills) (filled : new.filledSize = old.filledSize)
    (average : new.avgFillPrice = old.avgFillPrice) (pending : old.state = .pending) (other : old.tif ≠ .fok) :
    new.Accounted ordered := by
  apply accounted.restate terms fills filled average
  · rw [pending]
    exact Or.inr (by decide)
  · rw [state]
    exact Or.inl (by decide)
  · rw [pending]
    exact fun _ => Or.inl rfl
  · exact fun fok => absurd fok other

theorem Accounted.fits (accounted : order.Accounted ordered) (notRejected : order.state ≠ .rejected) :
    0 < order.size ∧ order.filledSize ≤ order.size := by
  have sized : 0 < order.size := accounted.sized.resolve_left notRejected
  have bounded := accounted.bounded
  rw [max_eq_right sized.le] at bounded
  exact ⟨sized, bounded⟩

end BacktestOrder

theorem Walk.Kept.accounted {ordered : Prop} {old new : BacktestOrder} {before : List Fill} {walk : Walk}
    (kept : walk.Kept old before) (state : OrderState) (sized : 0 < old.size) (terms : new.toNewOrder = old.toNewOrder) (at_ : new.state = state)
    (fills : new.fills = walk.order.fills) (filled : new.filledSize = walk.order.filledSize)
    (average : new.avgFillPrice = walk.order.avgFillPrice) (done : state = .filled → ordered ∨ old.tif ≠ .fok → walk.remaining ≤ slack)
    (started : state ≠ .pending ∧ state ≠ .rejected) (atomic : old.tif = .fok → state = .filled) : new.Accounted ordered := by
  have left := kept.left
  have nonneg := kept.nonneg
  have sameSize : walk.order.size = old.size := by rw [kept.terms]
  refine ⟨kept.booked.congr (terms.trans kept.terms.symm) fills filled average, Or.inr (by rwa [terms]), ?_, fun full => ?_,
    fun none_ => ?_, fun fok => ?_⟩
  · rw [filled, terms]
    exact le_max_of_le_right (by linarith)
  · unfold BacktestOrder.remainingSize
    rw [filled, terms, ← sameSize, ← left]
    rw [at_] at full
    exact fun enough => max_le (by norm_num [slack]) (done full enough)
  · rw [at_] at none_
    rcases none_ with pending | rejected
    · exact absurd pending started.1
    · exact absurd rejected started.2
  · rw [terms] at fok
    rw [at_]
    exact Or.inr (atomic fok)

/-- Every book is kept under the token of its snapshot, and every snapshot is of some kind. -/
def MatchingEngine.Shows (engine : MatchingEngine) (good : BookSnapshot → Prop) : Prop :=
  ∀ token book, engine.books.get? token = some book → book.snapshot.tokenId = token ∧ good book.snapshot

namespace MatchingEngine

variable {ordered : Prop} {config : MatchingConfig} {engine next : MatchingEngine} {ledger more : List Fill}
  {id : String} {snapshot : BookSnapshot} {last : MatchingEngine}
  {order old new : BacktestOrder}

def activeOn (engine : MatchingEngine) (token : String) : ℤ := (engine.activeCountByToken.get? token).getD 0

def liveOn (engine : MatchingEngine) (token : String) : ℕ :=
  engine.orders.count fun order => order.tokenId = token ∧ ¬ order.IsTerminal

structure Audited (engine : MatchingEngine) (ordered : Prop) (ledger : List Fill) : Prop where
  keyed : ∀ id order, engine.orders.get? id = some order → order.orderId = id
  accounts : ∀ id order, engine.orders.get? id = some order → order.Accounted ordered
  active : ∀ token, engine.activeOn token = engine.liveOn token
  nodup : ∀ token, (engine.working token).Nodup
  working : ∀ token id, id ∈ engine.working token ↔
    ∃ order, engine.orders.get? id = some order ∧ order.tokenId = token ∧ order.IsResting
  onRecord : ∀ id order, engine.orders.get? id = some order → order.fills = ledger.filter fun fill => fill.orderId = id
  known : ∀ fill ∈ ledger, ∃ order, engine.orders.get? fill.orderId = some order

def Keeps (engine next : MatchingEngine) : Prop :=
  ∀ id order, engine.orders.get? id = some order → order.IsTerminal → next.orders.get? id = some order

theorem Keeps.refl (engine : MatchingEngine) : engine.Keeps engine := fun _ _ found _ => found

theorem Keeps.trans (first : engine.Keeps next) (second : next.Keeps last) : engine.Keeps last :=
  fun id order found terminal => second id order (first id order found terminal) terminal

def Lasts (engine next : MatchingEngine) : Prop :=
  ∀ id old, engine.orders.get? id = some old → ∃ new, next.orders.get? id = some new ∧ new.toNewOrder = old.toNewOrder

theorem Lasts.refl (engine : MatchingEngine) : engine.Lasts engine := fun _ old found => ⟨old, found, rfl⟩

theorem Lasts.trans (first : engine.Lasts next) (second : next.Lasts last) : engine.Lasts last := by
  intro id old found
  obtain ⟨new, foundNew, terms⟩ := first id old found
  obtain ⟨newest, foundNewest, termsNew⟩ := second id new foundNew
  exact ⟨newest, foundNewest, termsNew.trans terms⟩

def Frames (engine next : MatchingEngine) : Prop :=
  ∀ id old, engine.orders.get? id = some old → ∃ new, next.orders.get? id = some new ∧
    new.venueReceivedAt = old.venueReceivedAt ∧ new.cancelPendingAt = old.cancelPendingAt

theorem Frames.refl (engine : MatchingEngine) : engine.Frames engine := fun _ old found => ⟨old, found, rfl, rfl⟩

theorem Frames.trans (first : engine.Frames next) (second : next.Frames last) : engine.Frames last := by
  intro id old found
  obtain ⟨new, foundNew, received, cancel⟩ := first id old found
  obtain ⟨newest, foundNewest, receivedNew, cancelNew⟩ := second id new foundNew
  exact ⟨newest, foundNewest, receivedNew.trans received, cancelNew.trans cancel⟩

def Waits (engine next : MatchingEngine) : Prop :=
  ∀ id order, next.orders.get? id = some order →
    ∃ old, engine.orders.get? id = some old ∧ (order.state = .pending → old.state = .pending)

/-- The pending cancels are as they were, but for those of orders that have ended. -/
def Cancels (engine next : MatchingEngine) : Prop :=
  ∀ id, next.pendingCancels.get? id = engine.pendingCancels.get? id ∨
    next.pendingCancels.get? id = none ∧ ∀ order, next.orders.get? id = some order → order.IsTerminal

/-- A step to an engine that is audited again and keeps the orders that have ended. -/
structure Reaches (engine : MatchingEngine) (ordered : Prop) (next : MatchingEngine) (ledger : List Fill) : Prop where
  audited : next.Audited ordered ledger
  keeps : engine.Keeps next
  lasts : engine.Lasts next
  frames : engine.Frames next
  waits : engine.Waits next
  cancels : engine.Cancels next
  onFile : next.allFills = engine.allFills
  clock : next.now = engine.now

theorem Audited.refl (audited : engine.Audited ordered ledger) : engine.Reaches ordered engine ledger :=
  ⟨audited, Keeps.refl engine, Lasts.refl engine, Frames.refl engine, fun _ order found => ⟨order, found, fun pending => pending⟩,
    fun _ => Or.inl rfl, rfl, rfl⟩

theorem Reaches.live (reached : engine.Reaches ordered next ledger) (found : next.orders.get? id = some new)
    (live : ¬ new.IsTerminal) : ∃ old, engine.orders.get? id = some old ∧ ¬ old.IsTerminal ∧
      new.venueReceivedAt = old.venueReceivedAt ∧ new.cancelPendingAt = old.cancelPendingAt := by
  obtain ⟨old, before, -⟩ := reached.waits id new found
  obtain ⟨after, at_, received, cancel⟩ := reached.frames id old before
  rw [found] at at_
  cases at_
  refine ⟨old, before, fun ended => ?_, received, cancel⟩
  have same := reached.keeps id old before ended
  rw [found] at same
  cases same
  exact live ended

theorem Reaches.trans (first : engine.Reaches ordered next ledger) (second : next.Reaches ordered last more) :
    engine.Reaches ordered last more := by
  refine ⟨second.audited, first.keeps.trans second.keeps, first.lasts.trans second.lasts, first.frames.trans second.frames,
    fun id order found => ?_, fun id => ?_, second.onFile.trans first.onFile,
    second.clock.trans first.clock⟩
  · obtain ⟨held, foundHeld, waits⟩ := second.waits id order found
    obtain ⟨old, foundOld, waited⟩ := first.waits id held foundHeld
    exact ⟨old, foundOld, fun pending => waited (waits pending)⟩
  · rcases second.cancels id with same | gone
    · rcases first.cancels id with sameFirst | ⟨none_, ended⟩
      · exact Or.inl (same.trans sameFirst)
      · refine Or.inr ⟨same.trans none_, fun order found => ?_⟩
        obtain ⟨held, foundHeld, -⟩ := second.waits id order found
        have stays := second.keeps id held foundHeld (ended held foundHeld)
        rw [found] at stays
        cases stays
        exact ended order foundHeld
    · exact Or.inr gone

theorem Reaches.congr (reached : engine.Reaches ordered next ledger) (audited : last.Audited ordered ledger)
    (orders : last.orders = next.orders) (allFills : last.allFills = next.allFills) (cancels : next.Cancels last)
    (now : last.now = next.now) : engine.Reaches ordered last ledger := by
  refine ⟨audited, fun id order found terminal => ?_, fun id old found => ?_, fun id old found => ?_, fun id order found => ?_,
    fun id => ?_, allFills.trans reached.onFile, now.trans reached.clock⟩
  · rw [orders]
    exact reached.keeps id order found terminal
  · rw [orders]
    exact reached.lasts id old found
  · rw [orders]
    exact reached.frames id old found
  · rw [orders] at found
    exact reached.waits id order found
  · rcases cancels id with same | gone
    · rw [same, orders]
      exact reached.cancels id
    · exact Or.inr gone

theorem Reaches.foldl {α : Type} {op : MatchingEngine → α → MatchingEngine}
    (each : ∀ (start : MatchingEngine) (item : α), start.Audited ordered ledger → start.Reaches ordered (op start item) ledger) (items : List α)
    (reached : engine.Reaches ordered next ledger) : engine.Reaches ordered (items.foldl op next) ledger := by
  induction items generalizing next with
  | nil => exact reached
  | cons item rest ih => exact ih (reached.trans (each next item reached.audited))

theorem Audited.congr (audited : engine.Audited ordered ledger) (orders : next.orders = engine.orders)
    (active : next.activeCountByToken = engine.activeCountByToken) (working : next.workingByToken = engine.workingByToken) :
    next.Audited ordered ledger := by
  have sameActive : ∀ token, next.activeOn token = engine.activeOn token := fun token => by rw [activeOn, active, activeOn]
  have sameLive : ∀ token, next.liveOn token = engine.liveOn token := fun token => by rw [liveOn, orders, liveOn]
  have sameWorking : ∀ token, next.working token = engine.working token :=
    fun token => by rw [MatchingEngine.working, working, MatchingEngine.working]
  constructor
  · rw [orders]
    exact audited.keyed
  · rw [orders]
    exact audited.accounts
  · intro token
    rw [sameActive, sameLive, audited.active]
  · intro token
    rw [sameWorking]
    exact audited.nodup token
  · intro token id
    rw [sameWorking, orders]
    exact audited.working token id
  · rw [orders]
    exact audited.onRecord
  · rw [orders]
    exact audited.known

theorem Audited.live_pos (audited : engine.Audited ordered ledger) (found : engine.orders.get? id = some order)
    (live : ¬ order.IsTerminal) : 0 < engine.activeOn order.tokenId := by
  rw [audited.active]
  have some_ : 0 < engine.liveOn order.tokenId := (Dict.count_pos_iff _ _).2 ⟨id, order, found, rfl, live⟩
  exact_mod_cast some_

theorem liveOn_set (found : engine.orders.get? id = some old) (orders : next.orders = engine.orders.set id new)
    (terms : new.toNewOrder = old.toNewOrder) (live : ¬ old.IsTerminal) (token : String) :
    (next.liveOn token : ℤ) = engine.liveOn token - if old.tokenId = token ∧ new.IsTerminal then 1 else 0 := by
  have sameToken : new.tokenId = old.tokenId := by rw [terms]
  rw [liveOn, orders, Dict.count_set, found, Option.elim_some, sameToken, liveOn]
  by_cases own : old.tokenId = token
  · by_cases ended : new.IsTerminal
    · simp [own, ended, live]
    · simp [own, ended, live]
  · simp [own]

theorem Audited.replace (audited : engine.Audited ordered ledger) (found : engine.orders.get? id = some old)
    (live : ¬ old.IsTerminal) (terms : new.toNewOrder = old.toNewOrder) (accounted : new.Accounted ordered)
    (waits : new.state = .pending → old.state = .pending) (orders : next.orders = engine.orders.set id new) (fills : new.fills = old.fills ++ more)
    (own : ∀ fill ∈ more, fill.orderId = id)
    (active : ∀ token, next.activeOn token = engine.activeOn token - if old.tokenId = token ∧ new.IsTerminal then 1 else 0)
    (nodup : ∀ token, (next.working token).Nodup)
    (working : ∀ token other, other ∈ next.working token ↔
      if id = other then old.tokenId = token ∧ new.IsResting else other ∈ engine.working token) :
    next.Audited ordered (ledger ++ more) ∧ engine.Keeps next ∧ engine.Lasts next ∧ engine.Waits next := by
  have gets : ∀ other, next.orders.get? other = if id = other then some new else engine.orders.get? other := by
    intro other
    rw [orders, Dict.get?_set]
  have sameToken : new.tokenId = old.tokenId := by rw [terms]
  have sameId : new.orderId = id := by rw [terms, audited.keyed id old found]
  have moreOf : ∀ other, (more.filter fun fill => fill.orderId = other) = if id = other then more else [] := by
    intro other
    by_cases same : id = other
    · subst same
      rw [if_pos rfl, List.filter_eq_self]
      intro fill member
      simpa using own fill member
    · rw [if_neg same, List.filter_eq_nil_iff]
      intro fill member
      simp [own fill member, same]
  refine ⟨⟨?_, ?_, ?_, nodup, ?_, ?_, ?_⟩, ?_, ?_, ?_⟩
  · intro other held at_
    rw [gets] at at_
    split_ifs at at_ with same
    · cases at_
      rw [sameId, same]
    · exact audited.keyed other held at_
  · intro other held at_
    rw [gets] at at_
    split_ifs at at_ with same
    · cases at_
      exact accounted
    · exact audited.accounts other held at_
  · intro token
    rw [active, audited.active, liveOn_set found orders terms live]
  · intro token other
    rw [working, gets]
    split_ifs with same
    · simp [sameToken]
    · exact audited.working token other
  · intro other held at_
    rw [gets] at at_
    rw [List.filter_append, moreOf]
    split_ifs at at_ ⊢ with same
    · cases at_
      subst same
      rw [fills, audited.onRecord id old found]
    · rw [List.append_nil, audited.onRecord other held at_]
  · intro fill member
    rw [gets]
    split_ifs with same
    · exact ⟨new, rfl⟩
    · rcases List.mem_append.1 member with old_ | new_
      · exact audited.known fill old_
      · exact absurd (own fill new_).symm same
  · intro other held at_ terminal
    rw [gets]
    split_ifs with same
    · subst same
      rw [found] at at_
      cases at_
      exact absurd terminal live
    · exact at_
  · intro other held at_
    rw [gets]
    split_ifs with same
    · subst same
      rw [found] at at_
      cases at_
      exact ⟨new, rfl, terms⟩
    · exact ⟨held, at_, rfl⟩
  · intro other held at_
    rw [gets] at at_
    split_ifs at at_ with same
    · cases at_
      subst same
      exact ⟨old, found, waits⟩
    · exact ⟨held, at_, fun pending => pending⟩

/-- The fills on record, the time and the pending cancels are as they were. -/
def Aside (engine next : MatchingEngine) : Prop :=
  next.allFills = engine.allFills ∧ next.now = engine.now ∧ next.pendingCancels = engine.pendingCancels

theorem Aside.trans (first : engine.Aside next) (second : next.Aside last) : engine.Aside last :=
  ⟨second.1.trans first.1, second.2.1.trans first.2.1, second.2.2.trans first.2.2⟩

theorem Reaches.of_set (found : engine.orders.get? id = some old) (orders : next.orders = engine.orders.set id new)
    (same : new.venueReceivedAt = old.venueReceivedAt ∧ new.cancelPendingAt = old.cancelPendingAt)
    (aside : engine.Aside next)
    (replaced : next.Audited ordered ledger ∧ engine.Keeps next ∧ engine.Lasts next ∧ engine.Waits next) :
    engine.Reaches ordered next ledger := by
  obtain ⟨audited, keeps, lasts, waits⟩ := replaced
  refine ⟨audited, keeps, lasts, fun other held at_ => ?_, waits, fun _ => Or.inl (by rw [aside.2.2]), aside.1, aside.2.1⟩
  rw [orders, Dict.get?_set]
  split_ifs with here
  · subst here
    rw [found] at at_
    cases at_
    exact ⟨new, rfl, same⟩
  · exact ⟨held, at_, rfl, rfl⟩

theorem activeOn_decrementActive {spent : String} (counted : 0 < engine.activeOn spent) (token : String) :
    (engine.decrementActive spent).activeOn token = engine.activeOn token - if spent = token then 1 else 0 := by
  unfold decrementActive activeOn at *
  simp only
  by_cases own : spent = token
  · subst own
    by_cases last : (engine.activeCountByToken.get? spent).getD 0 - 1 ≤ 0
    · rw [if_pos last, Dict.get?_erase, if_pos rfl, if_pos rfl, Option.getD_none]
      omega
    · rw [if_neg last, Dict.get?_set, if_pos rfl, if_pos rfl, Option.getD_some]
  · rw [if_neg own, sub_zero]
    by_cases last : (engine.activeCountByToken.get? spent).getD 0 - 1 ≤ 0
    · rw [if_pos last, Dict.get?_erase, if_neg own]
    · rw [if_neg last, Dict.get?_set, if_neg own]

theorem activeOn_terminate {state : OrderState} (live : ¬ order.IsTerminal) (counted : 0 < engine.activeOn order.tokenId)
    (token : String) : (engine.terminate order state).activeOn token =
      engine.activeOn token - if order.tokenId = token then 1 else 0 := by
  unfold terminate
  rw [if_neg live]
  exact @activeOn_decrementActive (engine.put { order with state := state }) order.tokenId counted token

theorem aside_terminate (engine : MatchingEngine) (order : BacktestOrder) (state : OrderState) :
    engine.Aside (engine.terminate order state) := by
  unfold terminate
  split_ifs
  · exact ⟨rfl, rfl, rfl⟩
  · exact ⟨rfl, rfl, rfl⟩

theorem aside_removeFromWorking (engine : MatchingEngine) (order : BacktestOrder) :
    engine.Aside (engine.removeFromWorking order) := by
  unfold removeFromWorking
  split_ifs
  · exact ⟨rfl, rfl, rfl⟩
  · exact ⟨rfl, rfl, rfl⟩

theorem aside_addToWorking (engine : MatchingEngine) (order : BacktestOrder) : engine.Aside (engine.addToWorking order) := by
  unfold addToWorking
  split_ifs
  · exact ⟨rfl, rfl, rfl⟩
  · exact ⟨rfl, rfl, rfl⟩

theorem orders_terminate {state : OrderState} (live : ¬ order.IsTerminal) :
    (engine.terminate order state).orders = engine.orders.set order.orderId { order with state := state } := by
  unfold terminate
  rw [if_neg live]
  rfl

theorem Audited.not_listed (audited : engine.Audited ordered ledger) (found : engine.orders.get? id = some order)
    (idle : ¬ order.IsResting) (token : String) : id ∉ engine.working token := by
  intro listed
  obtain ⟨other, held, -, resting⟩ := (audited.working token id).1 listed
  rw [found] at held
  cases held
  exact idle resting

theorem Audited.put (audited : engine.Audited ordered ledger) (found : engine.orders.get? id = some old)
    (live : ¬ old.IsTerminal) (terms : new.toNewOrder = old.toNewOrder) (accounted : new.Accounted ordered)
    (state : new.state = old.state) (fills : new.fills = old.fills ++ more) (own : ∀ fill ∈ more, fill.orderId = id) :
    (engine.put new).Audited ordered (ledger ++ more) ∧ engine.Keeps (engine.put new) ∧ engine.Lasts (engine.put new) ∧
      engine.Waits (engine.put new) := by
  have sameId : new.orderId = id := by rw [terms, audited.keyed id old found]
  have alive : ¬ new.IsTerminal := by
    unfold BacktestOrder.IsTerminal at live ⊢
    rwa [state]
  have rests : new.IsResting ↔ old.IsResting := by
    unfold BacktestOrder.IsResting
    rw [state]
  refine audited.replace found live terms accounted (fun pending => by rwa [← state]) (by rw [← sameId]; rfl) fills own
    (fun token => ?_) audited.nodup fun token other => ?_
  · rw [if_neg (fun both => alive both.2), sub_zero]
    rfl
  · rw [working_put]
    split_ifs with same
    · subst same
      rw [audited.working token id, rests]
      constructor
      · rintro ⟨held, at_, token, resting⟩
        rw [found] at at_
        cases at_
        exact ⟨token, resting⟩
      · rintro ⟨token, resting⟩
        exact ⟨old, found, token, resting⟩
    · exact Iff.rfl

theorem Audited.putReaches (audited : engine.Audited ordered ledger) (found : engine.orders.get? id = some old)
    (live : ¬ old.IsTerminal) (terms : new.toNewOrder = old.toNewOrder) (accounted : new.Accounted ordered)
    (state : new.state = old.state) (same : new.venueReceivedAt = old.venueReceivedAt ∧ new.cancelPendingAt = old.cancelPendingAt)
    (fills : new.fills = old.fills ++ more) (own : ∀ fill ∈ more, fill.orderId = id) :
    engine.Reaches ordered (engine.put new) (ledger ++ more) := by
  have orders : (engine.put new).orders = engine.orders.set id new := by
    have sameId : new.orderId = id := by rw [terms, audited.keyed id old found]
    rw [← sameId]
    rfl
  exact Reaches.of_set found orders same ⟨rfl, rfl, rfl⟩ (audited.put found live terms accounted state fills own)

theorem Audited.endPending {state : OrderState} (audited : engine.Audited ordered ledger) (found : engine.orders.get? id = some old)
    (live : ¬ old.IsTerminal) (idle : ¬ old.IsResting) {last : BacktestOrder} (terms : last.toNewOrder = old.toNewOrder)
    (alive : ¬ last.IsTerminal) (accounted : BacktestOrder.Accounted ordered { last with state := state })
    (final : BacktestOrder.IsTerminal { last with state := state })
    (same : last.venueReceivedAt = old.venueReceivedAt ∧ last.cancelPendingAt = old.cancelPendingAt)
    (fills : last.fills = old.fills ++ more) (own : ∀ fill ∈ more, fill.orderId = id) :
    engine.Reaches ordered (engine.terminate last state) (ledger ++ more) := by
  have sameId : last.orderId = id := by rw [terms, audited.keyed id old found]
  have sameToken : last.tokenId = old.tokenId := by rw [terms]
  have counted : 0 < engine.activeOn last.tokenId := by
    rw [sameToken]
    exact audited.live_pos found live
  have termsEnded : BacktestOrder.toNewOrder { last with state := state } = old.toNewOrder := terms
  have orders : (engine.terminate last state).orders = engine.orders.set id { last with state := state } := by
    rw [orders_terminate alive, sameId]
  refine Reaches.of_set found orders same (aside_terminate _ _ _) ?_
  refine audited.replace found live termsEnded accounted (fun pending => absurd pending final.not_pending) orders fills own
    (fun token => ?_) (fun token => ?_) fun token other => ?_
  · rw [activeOn_terminate alive counted, sameToken]
    simp [final]
  · rw [working_terminate]
    exact audited.nodup token
  · rw [working_terminate]
    split_ifs with same
    · subst same
      have unlisted := audited.not_listed found idle token
      have over_ := BacktestOrder.IsTerminal.not_resting final
      exact ⟨fun listed => absurd listed unlisted, fun both => absurd both.2 over_⟩
    · exact Iff.rfl

theorem Audited.endResting {state : OrderState} (audited : engine.Audited ordered ledger) (found : engine.orders.get? id = some old)
    (live : ¬ old.IsTerminal) {last : BacktestOrder} (terms : last.toNewOrder = old.toNewOrder)
    (alive : ¬ last.IsTerminal) (accounted : BacktestOrder.Accounted ordered { last with state := state })
    (final : BacktestOrder.IsTerminal { last with state := state })
    (same : last.venueReceivedAt = old.venueReceivedAt ∧ last.cancelPendingAt = old.cancelPendingAt)
    (fills : last.fills = old.fills ++ more) (own : ∀ fill ∈ more, fill.orderId = id) :
    engine.Reaches ordered ((engine.terminate last state).removeFromWorking old) (ledger ++ more) := by
  have sameId : last.orderId = id := by rw [terms, audited.keyed id old found]
  have oldId := audited.keyed id old found
  have sameToken : last.tokenId = old.tokenId := by rw [terms]
  have counted : 0 < engine.activeOn last.tokenId := by
    rw [sameToken]
    exact audited.live_pos found live
  have untouched : ((engine.terminate last state).removeFromWorking old).activeCountByToken =
      (engine.terminate last state).activeCountByToken := by
    unfold removeFromWorking
    split_ifs <;> rfl
  have termsEnded : BacktestOrder.toNewOrder { last with state := state } = old.toNewOrder := terms
  have orders : ((engine.terminate last state).removeFromWorking old).orders =
      engine.orders.set id { last with state := state } := by
    rw [orders_removeFromWorking, orders_terminate alive, sameId]
  refine Reaches.of_set found orders same ((aside_terminate _ _ _).trans (aside_removeFromWorking _ _)) ?_
  refine audited.replace found live termsEnded accounted (fun pending => absurd pending final.not_pending) orders fills own
    (fun token => ?_) (fun token => ?_) fun token other => ?_
  · rw [activeOn, untouched, ← activeOn, activeOn_terminate alive counted, sameToken]
    simp [final]
  · rw [working_removeFromWorking, working_terminate]
    split_ifs
    · exact (audited.nodup token).erase _
    · exact audited.nodup token
  · rw [working_removeFromWorking, working_terminate, oldId]
    have over_ := BacktestOrder.IsTerminal.not_resting final
    split_ifs with here same same
    · subst same
      exact ⟨fun listed => absurd listed (audited.nodup token).not_mem_erase, fun both => absurd both.2 over_⟩
    · rw [(audited.nodup token).mem_erase_iff]
      exact ⟨fun both => both.2, fun listed => ⟨fun equal => same equal.symm, listed⟩⟩
    · subst same
      refine ⟨fun listed => ?_, fun both => absurd both.2 over_⟩
      obtain ⟨held, at_, owned, -⟩ := (audited.working token id).1 listed
      rw [found] at at_
      cases at_
      exact absurd owned here
    · exact Iff.rfl

theorem Audited.rest {state : OrderState} (audited : engine.Audited ordered ledger) (found : engine.orders.get? id = some old)
    (live : ¬ old.IsTerminal) {last : BacktestOrder} (terms : last.toNewOrder = old.toNewOrder)
    (shown : BookSnapshot) (accounted : (rested config last state shown).Accounted ordered)
    (resting : (rested config last state shown).IsResting)
    (same : last.venueReceivedAt = old.venueReceivedAt ∧ last.cancelPendingAt = old.cancelPendingAt)
    (fills : last.fills = old.fills ++ more) (own : ∀ fill ∈ more, fill.orderId = id) :
    engine.Reaches ordered (engine.restAs config last state shown) (ledger ++ more) := by
  have termsRested : (rested config last state shown).toNewOrder = old.toNewOrder := terms
  have fillsRested : (rested config last state shown).fills = old.fills ++ more := fills
  have sameRested : (rested config last state shown).venueReceivedAt = old.venueReceivedAt ∧
      (rested config last state shown).cancelPendingAt = old.cancelPendingAt := same
  unfold restAs
  generalize rested config last state shown = new at *
  have sameId : new.orderId = id := by rw [termsRested, audited.keyed id old found]
  have sameToken : new.tokenId = old.tokenId := by rw [termsRested]
  have untouched : ((engine.put new).addToWorking new).activeCountByToken = engine.activeCountByToken := by
    unfold addToWorking
    split_ifs <;> rfl
  have alive : ¬ new.IsTerminal := fun terminal => BacktestOrder.IsTerminal.not_resting terminal resting
  have orders : ((engine.put new).addToWorking new).orders = engine.orders.set id new := by
    rw [orders_addToWorking, ← sameId]
    rfl
  refine Reaches.of_set found orders sameRested (aside_addToWorking (engine.put new) new) ?_
  refine audited.replace found live termsRested accounted (fun pending => absurd pending resting.not_pending) orders fillsRested
    own (fun token => ?_) (fun token => ?_) fun token other => ?_
  · rw [if_neg (fun both => alive both.2), sub_zero, activeOn, untouched, activeOn]
  · rw [working_addToWorking, working_put]
    split_ifs with added
    · exact (audited.nodup token).append (List.nodup_singleton _) (List.disjoint_singleton.2 added.2)
    · exact audited.nodup token
  · rw [working_addToWorking, working_put, sameId, sameToken]
    have ownToken : ∀ {token}, id ∈ engine.working token → old.tokenId = token := by
      intro token listed
      obtain ⟨held, at_, owned, -⟩ := (audited.working token id).1 listed
      rw [found] at at_
      cases at_
      exact owned
    split_ifs with added same same
    · subst same
      simp [added.1, resting]
    · have different : other ≠ id := fun equal => same equal.symm
      simp [different]
    · subst same
      constructor
      · intro listed
        exact ⟨ownToken listed, resting⟩
      · intro both
        by_contra unlisted
        exact added ⟨both.1, unlisted⟩
    · exact Iff.rfl

theorem Audited.decayQueue (audited : engine.Audited ordered ledger) (config : MatchingConfig) (before shown : ResidualBook) (id : String) :
    engine.Reaches ordered (engine.decayQueue config before shown id) ledger := by
  unfold MatchingEngine.decayQueue
  cases found : engine.orders.get? id with
  | none => exact audited.refl
  | some order =>
    simp only
    cases order.queueAheadShares with
    | none => exact audited.refl
    | some ahead =>
      simp only
      split_ifs with front
      · exact audited.refl
      · have accounted := audited.accounts id order found
        have reaches := @Audited.putReaches ordered engine ledger [] id order { order with queueAheadShares := some (decayedQueue
          config.queueProgressTradeFraction before shown order.side order.price ahead) } audited found
          (fun terminal => front (Or.inl terminal)) rfl (accounted.note rfl rfl rfl rfl rfl) rfl ⟨rfl, rfl⟩
          (List.append_nil _).symm (fun _ member => absurd member List.not_mem_nil)
        rwa [List.append_nil] at reaches

theorem Audited.refreshBook (audited : engine.Audited ordered ledger) (config : MatchingConfig) (snapshot : BookSnapshot) :
    engine.Reaches ordered (engine.refreshBook config snapshot) ledger := by
  have fresh : engine.Reaches ordered { engine with books := engine.books.set snapshot.tokenId { snapshot := snapshot } } ledger :=
    audited.refl.congr (audited.congr rfl rfl rfl) rfl rfl (fun _ => Or.inl rfl) rfl
  unfold MatchingEngine.refreshBook
  cases engine.books.get? snapshot.tokenId with
  | none => exact fresh
  | some old =>
    exact fresh.foldl (fun start id held => held.decayQueue config old _ id) _

theorem Audited.applyCancel (audited : engine.Audited ordered ledger) (id : String) (effectiveAt : Instant) :
    engine.Reaches ordered (engine.applyCancel id effectiveAt) ledger := by
  unfold MatchingEngine.applyCancel
  cases found : engine.orders.get? id with
  | none => exact audited.refl
  | some order =>
    simp only
    split_ifs with terminal pending
    · exact audited.refl
    all_goals
      have accounted := audited.accounts id order found
      have notRejected : order.state ≠ .rejected := fun state => terminal (Or.inr (Or.inr state))
      have notFilled : order.state ≠ .filled := fun state => terminal (Or.inl state)
      have cancelled : BacktestOrder.Accounted ordered { order with cancelledAt := some effectiveAt, state := .cancelled } :=
        accounted.cancelled rfl rfl rfl rfl rfl notRejected notFilled
      have final : BacktestOrder.IsTerminal { order with cancelledAt := some effectiveAt, state := .cancelled } :=
        Or.inr (Or.inl rfl)
    · have idle : ¬ order.IsResting := by
        unfold BacktestOrder.IsResting
        rw [pending]
        decide
      have reaches := @Audited.endPending ordered engine ledger [] id order .cancelled audited found terminal idle
        { order with cancelledAt := some effectiveAt } rfl terminal cancelled final ⟨rfl, rfl⟩ (List.append_nil _).symm
        (fun _ member => absurd member List.not_mem_nil)
      rwa [List.append_nil] at reaches
    · have reaches := @Audited.endResting ordered engine ledger [] id order .cancelled audited found terminal
        { order with cancelledAt := some effectiveAt } rfl terminal cancelled final ⟨rfl, rfl⟩ (List.append_nil _).symm
        (fun _ member => absurd member List.not_mem_nil)
      rwa [List.append_nil] at reaches

theorem ended_applyCancel {effectiveAt : Instant} (found : (engine.applyCancel id effectiveAt).orders.get? id = some order)
    (keyed : ∀ held, engine.orders.get? id = some held → held.orderId = id) : order.IsTerminal := by
  unfold MatchingEngine.applyCancel at found
  cases before : engine.orders.get? id with
  | none => simp [before] at found
  | some old =>
    simp only [before] at found
    have own := keyed old before
    split_ifs at found with terminal pending
    · rw [before] at found
      cases found
      exact terminal
    · rw [get?_terminate, if_pos own] at found
      cases found
      exact terminal_ended _ (Or.inr (Or.inl rfl))
    · rw [orders_removeFromWorking, get?_terminate, if_pos own] at found
      cases found
      exact terminal_ended _ (Or.inr (Or.inl rfl))

theorem Audited.applyDueCancels (audited : engine.Audited ordered ledger) (now : Instant) :
    engine.Reaches ordered (engine.applyDueCancels now) ledger := by
  unfold MatchingEngine.applyDueCancels
  refine audited.refl.foldl (fun start entry held => ?_) _
  split_ifs with due
  · have cancelled := held.applyCancel entry.1 entry.2
    refine cancelled.congr (cancelled.audited.congr rfl rfl rfl) rfl rfl (fun id => ?_) rfl
    rw [Dict.get?_erase]
    split_ifs with own
    · subst own
      exact Or.inr ⟨rfl, fun order found => ended_applyCancel found (held.keyed entry.1)⟩
    · exact Or.inl rfl
  · exact held.refl

/-- The engine once an advance has applied the due cancels and taken the new book. -/
def refreshedAt (config : MatchingConfig) (engine : MatchingEngine) (snapshot : BookSnapshot) : MatchingEngine :=
  ({ engine with now := some snapshot.observedAt }.applyDueCancels snapshot.observedAt).refreshBook config snapshot

/-- The engine once an advance has admitted the due orders, with their fills. -/
def admittedAt (config : MatchingConfig) (engine : MatchingEngine) (snapshot : BookSnapshot) : MatchingEngine × List Fill :=
  ((engine.refreshedAt config snapshot).orders.entries.map Prod.fst).foldl (admitDue config snapshot)
    (engine.refreshedAt config snapshot, [])

/-- The engine once an advance has looked at the orders at rest again, with all its fills. -/
def matchedAt (config : MatchingConfig) (engine : MatchingEngine) (snapshot : BookSnapshot) : MatchingEngine × List Fill :=
  ((engine.admittedAt config snapshot).1.working snapshot.tokenId).foldl (matchWorking config)
    (engine.admittedAt config snapshot)

theorem advanceTo_phases {fills : List Fill} (done : engine.advanceTo config snapshot = .ok (next, fills)) :
    (∀ now, engine.now = some now → now ≤ snapshot.observedAt) ∧ fills = (engine.matchedAt config snapshot).2 ∧
      next = { (engine.matchedAt config snapshot).1 with allFills := (engine.matchedAt config snapshot).1.allFills ++ fills } := by
  unfold MatchingEngine.advanceTo at done
  cases late : engine.now.filter fun now => snapshot.observedAt < now with
  | some now =>
    rw [late] at done
    cases done
  | none =>
    rw [late] at done
    simp only [Except.ok.injEq, Prod.mk.injEq] at done
    obtain ⟨rfl, rfl⟩ := done
    refine ⟨fun now known => ?_, rfl, rfl⟩
    rw [known] at late
    by_contra earlier
    simp only [Option.filter_some, not_le.1 earlier, decide_true, if_true] at late
    cases late

section Shows

variable {good : BookSnapshot → Prop}

theorem Shows.putBook (shows : engine.Shows good) {token : String} {book shown : ResidualBook}
    (held : engine.books.get? token = some book) (same : shown.snapshot = book.snapshot) : (engine.putBook shown).Shows good := by
  intro other after found
  simp only [MatchingEngine.putBook] at found
  rw [Dict.get?_set] at found
  split_ifs at found with own
  · cases found
    rw [same] at own ⊢
    exact ⟨own, (shows token book held).2⟩
  · exact shows other after found

theorem Shows.congr (shows : engine.Shows good) (books : next.books = engine.books) : next.Shows good := by
  unfold Shows
  rw [books]
  exact shows

theorem consumeLevels_snapshot (config : MatchingConfig) (now : Instant) (order : BacktestOrder) (book : ResidualBook)
    (produced : List Fill) : (config.consumeLevels now order book produced).book.snapshot = book.snapshot := by
  unfold MatchingConfig.consumeLevels
  split_ifs
  · rfl
  · refine @MatchingConfig.takerWalk_keeps config now _ (fun walk => walk.book.snapshot = book.snapshot) ?_ _ 0 _ ?_
    · intro walk index price take same _ _ _
      rw [← same]
      exact ResidualBook.snapshot_take _ _ _
    · rfl

theorem restingWalk_snapshot (config : MatchingConfig) (order : BacktestOrder) (book : ResidualBook) (produced : List Fill) :
    (config.restingWalk 0 (book.remaining order.side) ⟨order, book, produced, order.remainingSize⟩).book.snapshot =
      book.snapshot := by
  refine @MatchingConfig.restingWalk_keeps config (fun walk => walk.book.snapshot = book.snapshot) ?_ ?_ _ 0 _ ?_
  · exact fun walk _ same _ => same
  · intro walk index take probability same _ _
    rw [← same]
    exact ResidualBook.snapshot_take _ _ _
  · rfl

theorem books_restAs (engine : MatchingEngine) (order : BacktestOrder) (state : OrderState) (snapshot : BookSnapshot) :
    (engine.restAs config order state snapshot).books = engine.books := by
  rw [restAs, books_addToWorking, books_put]

theorem Shows.handleAdmit (shows : engine.Shows good) (config : MatchingConfig) (now : Instant) (produced : List Fill)
    (order : BacktestOrder) : (engine.handleAdmit config now produced order).1.Shows good := by
  unfold MatchingEngine.handleAdmit
  cases held : engine.books.get? order.tokenId with
  | none => exact shows
  | some book =>
    simp only
    have matched := shows.putBook held (consumeLevels_snapshot config now order book produced)
    split_ifs
    · exact shows.congr (books_terminate _ _ _)
    · exact shows.congr (books_terminate _ _ _)
    · exact matched.congr (books_terminate _ _ _)
    · exact matched.congr (books_terminate _ _ _)
    · exact matched.congr (books_restAs _ _ _ _)
    · exact matched.congr (books_terminate _ _ _)
    · exact shows.congr (books_terminate _ _ _)
    · exact shows.congr (books_restAs _ _ _ _)

theorem Shows.tryMatchResting (shows : engine.Shows good) (config : MatchingConfig) (produced : List Fill)
    (order : BacktestOrder) : (engine.tryMatchResting config produced order).1.Shows good := by
  unfold MatchingEngine.tryMatchResting
  cases held : engine.books.get? order.tokenId with
  | none => exact shows
  | some book =>
    simp only
    have matched := shows.putBook held (restingWalk_snapshot config order book produced)
    split_ifs
    · exact shows
    · exact shows
    · exact matched.congr (by rw [books_removeFromWorking, books_terminate, books_put])
    · exact matched.congr (books_put _ _)

theorem Shows.admitDue {state : MatchingEngine × List Fill} (shows : state.1.Shows good) (config : MatchingConfig)
    (snapshot : BookSnapshot) (id : String) : (admitDue config snapshot state id).1.Shows good := by
  unfold MatchingEngine.admitDue
  split
  · exact shows
  · split_ifs
    · exact shows.handleAdmit config _ _ _
    · exact shows

theorem Shows.matchWorking {state : MatchingEngine × List Fill} (shows : state.1.Shows good) (config : MatchingConfig)
    (id : String) : (matchWorking config state id).1.Shows good := by
  unfold MatchingEngine.matchWorking
  split
  · exact shows
  · split_ifs
    · exact shows
    · exact shows.tryMatchResting config _ _

theorem Shows.admitAll {state : MatchingEngine × List Fill} (shows : state.1.Shows good) (config : MatchingConfig)
    (snapshot : BookSnapshot) (ids : List String) : (ids.foldl (MatchingEngine.admitDue config snapshot) state).1.Shows good := by
  induction ids generalizing state with
  | nil => exact shows
  | cons id rest ih => exact ih (shows.admitDue config snapshot id)

theorem Shows.matchAll {state : MatchingEngine × List Fill} (shows : state.1.Shows good) (config : MatchingConfig)
    (ids : List String) : (ids.foldl (MatchingEngine.matchWorking config) state).1.Shows good := by
  induction ids generalizing state with
  | nil => exact shows
  | cons id rest ih => exact ih (shows.matchWorking config id)

theorem books_applyCancel (engine : MatchingEngine) (id : String) (effectiveAt : Instant) :
    (engine.applyCancel id effectiveAt).books = engine.books := by
  unfold MatchingEngine.applyCancel
  cases engine.orders.get? id with
  | none => rfl
  | some order =>
    simp only
    split_ifs
    · rfl
    · rw [books_terminate]
    · rw [books_removeFromWorking, books_terminate]

theorem books_applyDueCancels (engine : MatchingEngine) (now : Instant) :
    (engine.applyDueCancels now).books = engine.books := by
  unfold MatchingEngine.applyDueCancels
  generalize engine.pendingCancels.entries = entries
  induction entries generalizing engine with
  | nil => rfl
  | cons entry rest ih =>
    rw [List.foldl_cons, ih]
    split_ifs
    · exact books_applyCancel engine entry.1 entry.2
    · rfl

theorem books_refreshBook (config : MatchingConfig) (engine : MatchingEngine) (snapshot : BookSnapshot) :
    (engine.refreshBook config snapshot).books = engine.books.set snapshot.tokenId { snapshot := snapshot } := by
  have each : ∀ (before shown : ResidualBook) (ids : List String) (start : MatchingEngine),
      (ids.foldl (MatchingEngine.decayQueue config before shown) start).books = start.books := by
    intro before shown ids
    induction ids with
    | nil => exact fun _ => rfl
    | cons id rest ih =>
      intro start
      rw [List.foldl_cons, ih]
      unfold MatchingEngine.decayQueue
      split
      · rfl
      · split
        · rfl
        · split_ifs <;> rfl
  unfold MatchingEngine.refreshBook
  cases engine.books.get? snapshot.tokenId with
  | none => rfl
  | some old => exact each old _ _ _

theorem Shows.refreshedAt (shows : engine.Shows good) (config : MatchingConfig) (new : good snapshot) :
    (engine.refreshedAt config snapshot).Shows good := by
  intro token book found
  rw [MatchingEngine.refreshedAt, books_refreshBook, books_applyDueCancels, Dict.get?_set] at found
  split_ifs at found with own
  · cases found
    exact ⟨own, new⟩
  · exact shows token book found

theorem Shows.admittedAt (shows : engine.Shows good) (config : MatchingConfig) (new : good snapshot) :
    (engine.admittedAt config snapshot).1.Shows good :=
  @Shows.admitAll good (engine.refreshedAt config snapshot, []) (shows.refreshedAt config new) config snapshot _

theorem Shows.advanceTo {fills : List Fill} (shows : engine.Shows good) (new : good snapshot)
    (done : engine.advanceTo config snapshot = .ok (next, fills)) : next.Shows good := by
  obtain ⟨-, -, rfl⟩ := advanceTo_phases done
  exact ((shows.admittedAt config new).matchAll config _).congr rfl

end Shows

theorem Audited.handleAdmit {produced : List Fill} (audited : engine.Audited ordered (ledger ++ produced))
    (shows : ordered → engine.Shows BookSnapshot.Sorted)
    (config : MatchingConfig) (now : Instant) (found : engine.orders.get? id = some order) (pending : order.state = .pending) :
    engine.Reaches ordered (engine.handleAdmit config now produced order).1 (ledger ++ (engine.handleAdmit config now produced order).2) := by
  have accounted := audited.accounts id order found
  have live : ¬ order.IsTerminal := fun terminal => terminal.not_pending pending
  have idle : ¬ order.IsResting := fun resting => resting.not_pending pending
  have sameId := audited.keyed id order found
  obtain ⟨sized, fits⟩ := accounted.fits (by rw [pending]; decide)
  have nothing : ∀ fill ∈ ([] : List Fill), fill.orderId = id := fun _ member => absurd member List.not_mem_nil
  unfold MatchingEngine.handleAdmit
  cases held : engine.books.get? order.tokenId with
  | none => exact audited.refl
  | some book =>
    simp only
    have kept := config.consumeLevels_kept accounted.toBooked now book produced fits
    have filledUp := fun sorted enough =>
      @MatchingConfig.consumeLevels_fills config order book (shows sorted _ book held).2 now produced enough
    generalize config.consumeLevels now order book produced = walk at kept filledUp ⊢
    obtain ⟨more, made, fills, own⟩ := kept.fills
    have terms := kept.terms
    have ownId : ∀ fill ∈ more, fill.orderId = id := fun fill member => by rw [(own fill member).orderId, sameId]
    have alive : ¬ walk.order.IsTerminal := by
      unfold BacktestOrder.IsTerminal at live ⊢
      rwa [kept.state]
    have remaining : walk.order.remainingSize = walk.remaining := by
      unfold BacktestOrder.remainingSize
      rw [← kept.left, max_eq_right kept.nonneg]
    have onBook : (engine.putBook walk.book).Audited ordered (ledger ++ produced) := audited.congr rfl rfl rfl
    have booked : engine.Reaches ordered (engine.putBook walk.book) (ledger ++ produced) :=
      audited.refl.congr onBook rfl rfl (fun _ => Or.inl rfl) rfl
    split_ifs with crosses fok short marketable leftover takes takes
    · have reaches := @Audited.endPending ordered engine (ledger ++ produced) [] id order .rejected audited found live idle
        { order with rejectReason := some .postOnlyCrossesBook } rfl live (accounted.rejected rfl rfl rfl rfl rfl pending)
        (Or.inr (Or.inr rfl)) ⟨rfl, rfl⟩ (List.append_nil _).symm nothing
      rw [List.append_nil] at reaches
      exact reaches
    · have reaches := @Audited.endPending ordered engine (ledger ++ produced) [] id order .rejected audited found live idle
        { order with rejectReason := some .fokInsufficientLiquidity } rfl live (accounted.rejected rfl rfl rfl rfl rfl pending)
        (Or.inr (Or.inr rfl)) ⟨rfl, rfl⟩ (List.append_nil _).symm nothing
      rw [List.append_nil] at reaches
      exact reaches
    · have small : ordered ∨ order.tif ≠ .fok → walk.remaining ≤ slack := by
        intro sorted
        apply filledUp (sorted.resolve_right fun other => other fok)
        have enough := not_lt.1 short
        have whole : order.remainingSize ≤ order.size := max_le sized.le (by linarith [accounted.toBooked.nonneg])
        linarith
      have full : BacktestOrder.Accounted ordered { walk.order with state := .filled } :=
        kept.accounted .filled sized terms rfl rfl rfl rfl (fun _ => small) (by decide) fun _ => rfl
      have reaches := @Audited.endPending ordered (engine.putBook walk.book) (ledger ++ produced) more id order .filled onBook found live
        idle walk.order terms alive full (Or.inl rfl) ⟨kept.received, kept.pending⟩ fills ownId
      rw [made, ← List.append_assoc]
      exact booked.trans reaches
    · have cancelled : BacktestOrder.Accounted ordered { walk.order with cancelledAt := order.venueReceivedAt, state := .cancelled } :=
        kept.accounted .cancelled sized terms rfl rfl rfl rfl (fun impossible => by cases impossible) (by decide)
          fun same => absurd same fok
      have reaches := @Audited.endPending ordered (engine.putBook walk.book) (ledger ++ produced) more id order .cancelled onBook found
        live idle { walk.order with cancelledAt := order.venueReceivedAt } terms alive cancelled (Or.inr (Or.inl rfl))
        ⟨kept.received, kept.pending⟩ fills ownId
      rw [made, ← List.append_assoc]
      exact booked.trans reaches
    · have rests : (rested config walk.order .partially walk.book.snapshot).Accounted ordered :=
        kept.accounted .partially sized terms rfl rfl rfl rfl (fun impossible => by cases impossible) (by decide)
          fun same => absurd same fok
      have reaches := @Audited.rest ordered config (engine.putBook walk.book) (ledger ++ produced) more id order .partially onBook found
        live walk.order terms walk.book.snapshot rests (Or.inr rfl) ⟨kept.received, kept.pending⟩ fills ownId
      rw [made, ← List.append_assoc]
      exact booked.trans reaches
    · have small : walk.remaining ≤ slack := by
        rw [← remaining]
        exact (not_lt.1 leftover).trans (by norm_num [slack])
      have full : BacktestOrder.Accounted ordered { walk.order with state := .filled } :=
        kept.accounted .filled sized terms rfl rfl rfl rfl (fun _ _ => small) (by decide) fun _ => rfl
      have reaches := @Audited.endPending ordered (engine.putBook walk.book) (ledger ++ produced) more id order .filled onBook found live
        idle walk.order terms alive full (Or.inl rfl) ⟨kept.received, kept.pending⟩ fills ownId
      rw [made, ← List.append_assoc]
      exact booked.trans reaches
    · have cancelled : BacktestOrder.Accounted ordered { order with cancelledAt := order.venueReceivedAt, state := .cancelled } :=
        accounted.cancelled rfl rfl rfl rfl rfl (by rw [pending]; decide) (by rw [pending]; decide)
      have reaches := @Audited.endPending ordered engine (ledger ++ produced) [] id order .cancelled audited found live idle
        { order with cancelledAt := order.venueReceivedAt } rfl live cancelled (Or.inr (Or.inl rfl)) ⟨rfl, rfl⟩
        (List.append_nil _).symm nothing
      rw [List.append_nil] at reaches
      exact reaches
    · have rests : (rested config order .working book.snapshot).Accounted ordered :=
        accounted.atRest rfl rfl rfl rfl rfl pending fok
      have reaches := @Audited.rest ordered config engine (ledger ++ produced) [] id order .working audited found live order rfl
        book.snapshot rests (Or.inl rfl) ⟨rfl, rfl⟩ (List.append_nil _).symm nothing
      rw [List.append_nil] at reaches
      exact reaches

theorem Audited.tryMatchResting {produced : List Fill} (audited : engine.Audited ordered (ledger ++ produced))
    (config : MatchingConfig) (found : engine.orders.get? id = some order) (live : ¬ order.IsTerminal)
    (admitted : order.state ≠ .pending) :
    engine.Reaches ordered (engine.tryMatchResting config produced order).1 (ledger ++ (engine.tryMatchResting config produced order).2) := by
  have accounted := audited.accounts id order found
  have sameId := audited.keyed id order found
  have notFilled : order.state ≠ .filled := fun state => live (Or.inl state)
  have notRejected : order.state ≠ .rejected := fun state => live (Or.inr (Or.inr state))
  have resting : order.IsResting := BacktestOrder.resting_of_live live admitted
  have notFok : order.tif ≠ .fok := by
    intro fok
    rcases accounted.atomic fok with ⟨-, idle⟩ | full
    · exact idle resting
    · exact notFilled full
  obtain ⟨sized, fits⟩ := accounted.fits notRejected
  unfold MatchingEngine.tryMatchResting
  cases held : engine.books.get? order.tokenId with
  | none => exact audited.refl
  | some book =>
    simp only
    have kept := config.restingWalk_kept accounted.toBooked book produced fits
    generalize config.restingWalk 0 (book.remaining order.side) ⟨order, book, produced, order.remainingSize⟩ = walk at kept ⊢
    obtain ⟨more, made, fills, own⟩ := kept.fills
    have terms := kept.terms
    have ownId : ∀ fill ∈ more, fill.orderId = id := fun fill member => by rw [(own fill member).orderId, sameId]
    have onBook : (engine.putBook walk.book).Audited ordered (ledger ++ produced) := audited.congr rfl rfl rfl
    have booked : engine.Reaches ordered (engine.putBook walk.book) (ledger ++ produced) :=
      audited.refl.congr onBook rfl rfl (fun _ => Or.inl rfl) rfl
    have remaining : walk.order.remainingSize = walk.remaining := by
      unfold BacktestOrder.remainingSize
      rw [← kept.left, max_eq_right kept.nonneg]
    have goesOn : walk.order.Accounted ordered :=
      kept.accounted order.state sized terms kept.state rfl rfl rfl (fun full => absurd full notFilled)
        ⟨admitted, notRejected⟩ fun fok => absurd fok notFok
    have matched := booked.trans (onBook.putReaches found live terms goesOn kept.state ⟨kept.received, kept.pending⟩ fills ownId)
    split_ifs with queued full last
    · exact audited.refl
    · exact audited.refl
    · have ends : BacktestOrder.Accounted ordered { walk.order with state := .filled } :=
        kept.accounted .filled sized terms rfl rfl rfl rfl (fun _ _ => by rw [← remaining]; exact last.1) (by decide) fun _ => rfl
      have alive : ¬ walk.order.IsTerminal := by
        unfold BacktestOrder.IsTerminal at live ⊢
        rwa [kept.state]
      have foundAgain : ((engine.putBook walk.book).put walk.order).orders.get? id = some walk.order := by
        rw [get?_put, terms, if_pos sameId]
      have ended := @Audited.endResting ordered ((engine.putBook walk.book).put walk.order) (ledger ++ produced ++ more) [] id walk.order
        .filled matched.audited foundAgain alive walk.order rfl alive ends (Or.inl rfl) ⟨rfl, rfl⟩ (List.append_nil _).symm
        (fun _ member => absurd member List.not_mem_nil)
      rw [List.append_nil] at ended
      rw [made, ← List.append_assoc]
      exact matched.trans ended
    · rw [made, ← List.append_assoc]
      exact matched

theorem Audited.admitAll {produced : List Fill} (audited : engine.Audited ordered (ledger ++ produced))
    (shows : ordered → engine.Shows BookSnapshot.Sorted)
    (config : MatchingConfig) (snapshot : BookSnapshot) (ids : List String) :
    engine.Reaches ordered (ids.foldl (admitDue config snapshot) (engine, produced)).1
        (ledger ++ (ids.foldl (admitDue config snapshot) (engine, produced)).2) := by
  induction ids generalizing engine produced with
  | nil => exact audited.refl
  | cons id rest ih =>
    simp only [List.foldl_cons, admitDue]
    cases found : engine.orders.get? id with
    | none => exact ih audited shows
    | some order =>
      simp only
      split_ifs with due
      · have reaches := audited.handleAdmit shows config snapshot.observedAt found due.2.1
        exact reaches.trans (ih reaches.audited fun sorted => (shows sorted).handleAdmit config _ _ _)
      · exact ih audited shows

theorem Audited.matchAll {produced : List Fill} (audited : engine.Audited ordered (ledger ++ produced))
    (config : MatchingConfig) (ids : List String)
    (admitted : ∀ id ∈ ids, ∀ order, engine.orders.get? id = some order → order.state ≠ .pending) :
    engine.Reaches ordered (ids.foldl (matchWorking config) (engine, produced)).1
        (ledger ++ (ids.foldl (matchWorking config) (engine, produced)).2) := by
  induction ids generalizing engine produced with
  | nil => exact audited.refl
  | cons id rest ih =>
    simp only [List.foldl_cons, matchWorking]
    have admittedRest : ∀ other ∈ rest, ∀ order, engine.orders.get? other = some order → order.state ≠ .pending :=
      fun other member => admitted other (List.mem_cons_of_mem _ member)
    cases found : engine.orders.get? id with
    | none => exact ih audited admittedRest
    | some order =>
      simp only
      split_ifs with terminal
      · exact ih audited admittedRest
      · have reaches := audited.tryMatchResting config found terminal (admitted id List.mem_cons_self order found)
        refine reaches.trans (ih reaches.audited fun other member held at_ pending => ?_)
        obtain ⟨before, foundBefore, waited⟩ := reaches.waits other held at_
        exact admittedRest other member before foundBefore (waited pending)

theorem Audited.refreshedAt (audited : engine.Audited ordered ledger) (config : MatchingConfig) (snapshot : BookSnapshot) :
    { engine with now := some snapshot.observedAt }.Reaches ordered (engine.refreshedAt config snapshot) ledger := by
  have timed : { engine with now := some snapshot.observedAt }.Audited ordered ledger := audited.congr rfl rfl rfl
  have cancelled := timed.applyDueCancels snapshot.observedAt
  exact cancelled.trans (cancelled.audited.refreshBook config snapshot)

theorem Audited.admittedAt (audited : engine.Audited ordered ledger) (shows : ordered → engine.Shows BookSnapshot.Sorted)
    (config : MatchingConfig) (sorted : ordered → snapshot.Sorted) :
    { engine with now := some snapshot.observedAt }.Reaches ordered (engine.admittedAt config snapshot).1
      (ledger ++ (engine.admittedAt config snapshot).2) := by
  have refreshed := audited.refreshedAt config snapshot
  have begun : (engine.refreshedAt config snapshot).Audited ordered (ledger ++ []) := by
    rw [List.append_nil]
    exact refreshed.audited
  exact refreshed.trans (begun.admitAll (fun known => (shows known).refreshedAt config (sorted known)) config snapshot _)

theorem Audited.matchedAt (audited : engine.Audited ordered ledger) (shows : ordered → engine.Shows BookSnapshot.Sorted)
    (config : MatchingConfig) (sorted : ordered → snapshot.Sorted) :
    { engine with now := some snapshot.observedAt }.Reaches ordered (engine.matchedAt config snapshot).1
      (ledger ++ (engine.matchedAt config snapshot).2) := by
  have admitted := audited.admittedAt shows config sorted
  refine admitted.trans (admitted.audited.matchAll config _ fun id listed order found => ?_)
  obtain ⟨held, at_, -, resting⟩ := (admitted.audited.working snapshot.tokenId id).1 listed
  rw [found] at at_
  cases at_
  exact resting.not_pending

theorem Audited.advanceTo {fills : List Fill} (audited : engine.Audited ordered engine.allFills)
    (shows : ordered → engine.Shows BookSnapshot.Sorted) (sorted : ordered → snapshot.Sorted)
    (done : engine.advanceTo config snapshot = .ok (next, fills)) :
    next.Audited ordered next.allFills ∧ engine.Keeps next ∧ engine.Lasts next ∧ next.allFills = engine.allFills ++ fills := by
  obtain ⟨-, rfl, rfl⟩ := advanceTo_phases done
  have matched := audited.matchedAt shows config sorted
  refine ⟨?_, matched.keeps, matched.lasts, ?_⟩
  · simp only [matched.onFile]
    exact matched.audited.congr rfl rfl rfl
  · simp only [matched.onFile]

theorem Audited.enter (audited : engine.Audited ordered engine.allFills) (absent : engine.orders.get? id = none) (named : new.orderId = id)
    (accounted : new.Accounted ordered) (unfilled : new.fills = []) (idle : ¬ new.IsResting) (orders : next.orders = engine.orders.set id new)
    (workingByToken : next.workingByToken = engine.workingByToken) (allFills : next.allFills = engine.allFills)
    (active : ∀ token, next.activeOn token = engine.activeOn token + if new.tokenId = token ∧ ¬ new.IsTerminal then 1 else 0) :
    next.Audited ordered next.allFills ∧ engine.Keeps next ∧ engine.Lasts next := by
  have stays : ∀ other held, engine.orders.get? other = some held → id ≠ other := by
    intro other held found same
    rw [← same, absent] at found
    cases found
  have unnamed : engine.allFills.filter (fun fill => fill.orderId = id) = [] := by
    rw [List.filter_eq_nil_iff]
    intro fill member names
    obtain ⟨held, found⟩ := audited.known fill member
    rw [of_decide_eq_true names, absent] at found
    cases found
  have gets : ∀ other, next.orders.get? other = if id = other then some new else engine.orders.get? other := by
    intro other
    rw [orders, Dict.get?_set]
  have working : ∀ token, next.working token = engine.working token := fun token => by
    rw [MatchingEngine.working, workingByToken, MatchingEngine.working]
  refine ⟨⟨?_, ?_, fun token => ?_, fun token => ?_, fun token other => ?_, ?_, ?_⟩, ?_, ?_⟩
  · intro other held found
    rw [gets] at found
    split_ifs at found with same
    · cases found
      exact named.trans same
    · exact audited.keyed other held found
  · intro other held found
    rw [gets] at found
    split_ifs at found with same
    · cases found
      exact accounted
    · exact audited.accounts other held found
  · rw [active, audited.active, liveOn, liveOn, orders, Dict.count_set, absent, Option.elim_none, sub_zero]
  · rw [working]
    exact audited.nodup token
  · rw [working, gets, audited.working]
    split_ifs with same
    · subst same
      rw [absent]
      simp [idle]
    · exact Iff.rfl
  · intro other held found
    rw [gets] at found
    rw [allFills]
    split_ifs at found with same
    · cases found
      subst same
      rw [unnamed, unfilled]
    · exact audited.onRecord other held found
  · rw [allFills]
    intro fill member
    obtain ⟨held, found⟩ := audited.known fill member
    rw [gets]
    split_ifs with same
    · exact ⟨new, rfl⟩
    · exact ⟨held, found⟩
  · intro other held found _
    rw [gets, if_neg (stays other held found), found]
  · intro other held found
    exact ⟨held, by rw [gets, if_neg (stays other held found), found], rfl⟩

theorem size_pos_of_valid {rules : OrderRule} {side : Side} {price size : ℚ} {tif : Tif} {postOnly : Bool} {adjusted : Option ℚ}
    (valid : rules.validateSubmit side price size tif postOnly = .ok adjusted) : 0 < size := by
  unfold OrderRule.validateSubmit at valid
  by_contra small
  by_cases maker : postOnly = true ∧ tif.IsTaker
  · rw [if_pos maker] at valid
    cases valid
  · rw [if_neg maker, if_pos (not_lt.1 small)] at valid
    cases valid

theorem accounted_of_unfilled (unfilled : new.fills = []) (zero : new.filledSize = 0)
    (state : new.state = .pending ∧ 0 < new.size ∨ new.state = .rejected) : new.Accounted ordered := by
  have idle : ¬ new.IsResting := by
    unfold BacktestOrder.IsResting
    rcases state with ⟨pending, -⟩ | rejected
    · rw [pending]
      decide
    · rw [rejected]
      decide
  have notFull : new.state ≠ .filled := by
    rcases state with ⟨pending, -⟩ | rejected
    · rw [pending]
      decide
    · rw [rejected]
      decide
  refine ⟨⟨?_, ?_, ?_, ?_⟩, ?_, ?_, fun full => absurd full notFull, fun _ => unfilled, fun _ => Or.inl ⟨unfilled, idle⟩⟩
  · rw [unfilled, zero]
    rfl
  · rw [unfilled, zero, mul_zero]
    rfl
  · rw [unfilled]
    rfl
  · rw [unfilled]
    exact fun fill member => absurd member List.not_mem_nil
  · rcases state with ⟨-, sized⟩ | rejected
    · exact Or.inr sized
    · exact Or.inl rejected
  · rw [zero]
    exact le_max_left _ _

theorem Audited.submit {order : NewOrder} {latency : Instant} (audited : engine.Audited ordered engine.allFills)
    (done : engine.submit config order latency = .ok next) :
    next.Audited ordered next.allFills ∧ engine.Keeps next ∧ engine.Lasts next := by
  obtain ⟨absent, ⟨reason, rfl⟩ | ⟨adjusted, verdict, rfl⟩⟩ := submit_spec done
  · exact @Audited.enter ordered engine _ order.orderId { toNewOrder := order, state := .rejected, rejectReason := some reason } audited
      absent rfl (accounted_of_unfilled rfl rfl (Or.inr rfl)) rfl (by unfold BacktestOrder.IsResting; simp) rfl rfl rfl
      (fun token => by simp [activeOn, MatchingEngine.put, BacktestOrder.IsTerminal])
  · exact @Audited.enter ordered engine _ order.orderId
        { toNewOrder := { order with price := adjusted.getD order.price }, venueReceivedAt := some (order.submittedAt + latency) }
        audited absent rfl (accounted_of_unfilled rfl rfl (Or.inl ⟨rfl, size_pos_of_valid verdict⟩)) rfl
        (by unfold BacktestOrder.IsResting; simp) rfl rfl rfl (fun token => by
          by_cases own : order.tokenId = token
          · subst own
            simp [activeOn, Dict.get?_set, BacktestOrder.IsTerminal]
          · simp [activeOn, Dict.get?_set, own])

theorem Audited.cancel (audited : engine.Audited ordered engine.allFills) (id : String) (requestedAt latency : Instant) :
    (engine.cancel id requestedAt latency).1.Audited ordered (engine.cancel id requestedAt latency).1.allFills ∧
      engine.Keeps (engine.cancel id requestedAt latency).1 ∧ engine.Lasts (engine.cancel id requestedAt latency).1 := by
  unfold MatchingEngine.cancel
  cases found : engine.orders.get? id with
  | none => exact ⟨audited, Keeps.refl engine, Lasts.refl engine⟩
  | some order =>
    simp only
    split_ifs with terminal noted
    · exact ⟨audited, Keeps.refl engine, Lasts.refl engine⟩
    · exact ⟨audited, Keeps.refl engine, Lasts.refl engine⟩
    · have accounted := audited.accounts id order found
      have reaches := @Audited.put ordered engine engine.allFills [] id order { order with cancelPendingAt := some (requestedAt + latency) }
        audited found terminal rfl (accounted.note rfl rfl rfl rfl rfl) rfl (List.append_nil _).symm
        (fun _ member => absurd member List.not_mem_nil)
      rw [List.append_nil] at reaches
      exact ⟨reaches.1.congr rfl rfl rfl, reaches.2.1, reaches.2.2.1⟩

theorem books_submit {order : NewOrder} {latency : Instant} (done : engine.submit config order latency = .ok next) :
    next.books = engine.books := by
  obtain ⟨-, ⟨reason, rfl⟩ | ⟨adjusted, -, rfl⟩⟩ := submit_spec done
  · rfl
  · rfl

theorem books_cancel (engine : MatchingEngine) (id : String) (requestedAt latency : Instant) :
    (engine.cancel id requestedAt latency).1.books = engine.books := by
  unfold MatchingEngine.cancel
  cases engine.orders.get? id with
  | none => rfl
  | some order =>
    simp only
    split_ifs <;> rfl

def SortedCall : MatchingCall → Prop
  | .submit _ _ => True
  | .cancel _ _ _ => True
  | .advanceTo snapshot => snapshot.Sorted

theorem Shows.step {good : BookSnapshot → Prop} (shows : engine.Shows good) {call : MatchingCall}
    (new : ∀ snapshot, call = .advanceTo snapshot → good snapshot) : (engine.step config call).Shows good := by
  cases call with
  | submit order latency =>
    simp only [MatchingEngine.step]
    cases done : engine.submit config order latency with
    | error _ => exact shows
    | ok next => exact shows.congr (books_submit done)
  | cancel id requestedAt latency => exact shows.congr (books_cancel engine id requestedAt latency)
  | advanceTo snapshot =>
    simp only [MatchingEngine.step]
    cases done : engine.advanceTo config snapshot with
    | error _ => exact shows
    | ok result => exact shows.advanceTo (new snapshot rfl) done

theorem Audited.step (audited : engine.Audited ordered engine.allFills) (shows : ordered → engine.Shows BookSnapshot.Sorted)
    {call : MatchingCall} (sorted : ordered → SortedCall call) :
    (engine.step config call).Audited ordered (engine.step config call).allFills ∧
      engine.Keeps (engine.step config call) ∧ engine.Lasts (engine.step config call) := by
  have still : engine.Audited ordered engine.allFills ∧ engine.Keeps engine ∧ engine.Lasts engine :=
    ⟨audited, Keeps.refl engine, Lasts.refl engine⟩
  cases call with
  | submit order latency =>
    simp only [MatchingEngine.step]
    cases done : engine.submit config order latency with
    | error _ => exact still
    | ok next => exact audited.submit done
  | cancel id requestedAt latency => exact audited.cancel id requestedAt latency
  | advanceTo snapshot =>
    simp only [MatchingEngine.step]
    cases done : engine.advanceTo config snapshot with
    | error _ => exact still
    | ok result =>
      obtain ⟨advanced, keeps, lasts, -⟩ := audited.advanceTo shows sorted done
      exact ⟨advanced, keeps, lasts⟩

theorem audited_empty (ordered : Prop) : Audited {} ordered [] := by
  refine ⟨?_, ?_, fun _ => rfl, fun _ => List.nodup_nil, fun token id => ?_, ?_, ?_⟩
  · exact fun id order found => by cases found
  · exact fun id order found => by cases found
  · constructor
    · intro listed
      cases listed
    · rintro ⟨order, found, -⟩
      cases found
  · exact fun id order found => by cases found
  · exact fun fill member => by cases member

theorem Audited.hasActive_iff (audited : engine.Audited ordered ledger) (token : String) :
    engine.hasActiveOrdersForToken token = true ↔
      ∃ id order, engine.orders.get? id = some order ∧ order.tokenId = token ∧ ¬ order.IsTerminal := by
  have active := audited.active token
  unfold activeOn at active
  unfold hasActiveOrdersForToken
  rw [decide_eq_true_eq, active, Int.natCast_pos, liveOn, Dict.count_pos_iff]

/-- What one call does to the orders that are there: what has ended stays as it is, and an order to fill or
kill is filled in one call or not at all. -/
structure CarriesOn (engine next : MatchingEngine) : Prop where
  ended : ∀ id order, engine.orders.get? id = some order → order.IsTerminal → next.orders.get? id = some order
  fillOrKill : ∀ id old, engine.orders.get? id = some old → ∃ new, next.orders.get? id = some new ∧
    new.toNewOrder = old.toNewOrder ∧ (old.tif = .fok → new.fills = old.fills ∨ old.fills = [] ∧ new.state = .filled)

theorem Audited.carriesOn {after : List Fill} (audited : engine.Audited ordered ledger) (auditedNext : next.Audited ordered after)
    (keeps : engine.Keeps next) (lasts : engine.Lasts next) : engine.CarriesOn next := by
  refine ⟨keeps, fun id old found => ?_⟩
  obtain ⟨new, foundNew, terms⟩ := lasts id old found
  refine ⟨new, foundNew, terms, fun fok => ?_⟩
  have fokNew : new.tif = .fok := by rw [terms, fok]
  rcases (audited.accounts id old found).atomic fok with ⟨empty, -⟩ | full
  · rcases (auditedNext.accounts id new foundNew).atomic fokNew with ⟨emptyNew, -⟩ | fullNew
    · exact Or.inl (emptyNew.trans empty.symm)
    · exact Or.inr ⟨empty, fullNew⟩
  · have same := keeps id old found (Or.inl full)
    rw [foundNew] at same
    cases same
    exact Or.inl rfl

/-- Orders, indexes and the fills on record agree, and the index of active orders answers for the orders. `ordered` says whether the
ladders are known to be sorted; only the completeness of a filled order to fill or kill rests on it. -/
structure Consistent (ordered : Prop) (engine : MatchingEngine) : Prop where
  audited : engine.Audited ordered engine.allFills
  answers : ∀ token, engine.hasActiveOrdersForToken token = true ↔
    ∃ id order, engine.orders.get? id = some order ∧ order.tokenId = token ∧ ¬ order.IsTerminal

/-- Every state of a run is consistent, and every call carries the orders on. -/
theorem consistent_run (config : MatchingConfig) (calls : List MatchingCall) :
    Always (step config) (Consistent (∀ call ∈ calls, SortedCall call)) {} calls ∧
      Meets (step config) (fun engine call => engine.CarriesOn (engine.step config call)) {} calls := by
  obtain ⟨ordered, same⟩ : ∃ ordered, ordered = ∀ call ∈ calls, SortedCall call := ⟨_, rfl⟩
  rw [← same]
  have meets : Meets (step config) (fun _ call => ordered → SortedCall call) {} calls :=
    Meets.of_mem (fun call member sorted => (same ▸ sorted) call member) _
  have start : Audited {} ordered [] ∧ (ordered → Shows {} BookSnapshot.Sorted) :=
    ⟨audited_empty ordered, fun _ token book found => by cases found⟩
  have keeps : ∀ (engine : MatchingEngine) (call : MatchingCall),
      engine.Audited ordered engine.allFills ∧ (ordered → engine.Shows BookSnapshot.Sorted) → (ordered → SortedCall call) →
        (engine.step config call).Audited ordered (engine.step config call).allFills ∧
          (ordered → (engine.step config call).Shows BookSnapshot.Sorted) := by
    intro engine call held sortedCall
    obtain ⟨audited, -, -⟩ := held.1.step held.2 sortedCall
    refine ⟨audited, fun sorted => (held.2 sorted).step fun snapshot advance => ?_⟩
    subst advance
    exact sortedCall sorted
  constructor
  · have always := always_of_meets keeps start meets
    intro first isPrefix
    have audited := (always first isPrefix).1
    exact ⟨audited, audited.hasActive_iff⟩
  · refine Meets.imp keeps (fun engine call held sortedCall => ?_) start meets
    obtain ⟨audited, keeps, lasts⟩ := held.1.step held.2 sortedCall
    exact held.1.carriesOn audited keeps lasts

/-- A buy to fill or kill at 0.5, and a book whose asks are not sorted. -/
def unsortedFok : List MatchingCall :=
  [.submit ⟨"a", "T", .buy, 1 / 2, 100, .fok, false, 0, none⟩ 0, .advanceTo ⟨"T", 1, [], [⟨3 / 5, 100⟩, ⟨1 / 2, 100⟩], none⟩]

/-- An order of negative size is rejected with nothing filled, which is more than its size. An order to fill or kill that walks an
unsorted ladder ends FILLED without a fill. -/
theorem not_within_size : (¬ ∀ (config : MatchingConfig) (calls : List MatchingCall),
    Always (step config) (fun engine => ∀ id order, engine.orders.get? id = some order → order.filledSize ≤ order.size)
      {} calls) ∧
    ¬ ∀ (config : MatchingConfig) (calls : List MatchingCall),
      Always (step config) (fun engine => ∀ id order, engine.orders.get? id = some order → order.state = .filled →
        order.remainingSize ≤ slack) {} calls := by
  constructor
  · intro all
    have within := all {} [.submit ⟨"a", "T", .buy, 1 / 2, -1, .gtc, false, 0, none⟩ 0] _ (List.prefix_refl _) "a"
    have rejected : ∃ order, (run (step {}) {} [.submit ⟨"a", "T", .buy, 1 / 2, -1, .gtc, false, 0, none⟩ 0]).orders.get? "a" =
        some order ∧ ¬ order.filledSize ≤ order.size := by
      refine ⟨_, Option.eq_some_of_isSome (by decide +kernel), ?_⟩
      decide +kernel
    obtain ⟨order, found, more⟩ := rejected
    exact more (within order found)
  · intro all
    have within := all {} unsortedFok _ (List.prefix_refl _) "a"
    have short : ∃ order, (run (step {}) {} unsortedFok).orders.get? "a" = some order ∧ order.state = .filled ∧
        ¬ order.remainingSize ≤ slack := by
      refine ⟨_, Option.eq_some_of_isSome (by decide +kernel), ?_⟩
      decide +kernel
    obtain ⟨order, found, full, more⟩ := short
    exact more (within order found full)

end MatchingEngine

end Callisto.Backtest
