import Callisto.Library.Tasks
import Mathlib.Data.List.Pairwise
import Mathlib.Data.List.Perm.Basic

/-! Rows under unique keys, written by clients in transactions. A client sees what is committed and its own rows; an insert
waits for a row of another client that it clashes with, and a lock on a row waits for its holder. -/

namespace Callisto.Library

/-- What must be unique in a row, the lock it is written under, and the key of the row that a lock is on. -/
structure Tables (ρ κ ℓ : Type) where
  keys : ρ → List κ
  guard : ρ → ℓ
  anchor : ℓ → κ

/-- The rows that are committed, the rows and the locks of the clients' transactions, and the clients whose transaction has
failed. -/
structure Store (ρ ℓ : Type) where
  committed : List ρ := []
  pending : List (ℕ × ρ) := []
  locks : List (ℕ × ℓ) := []
  broken : List ℕ := []

inductive Inserted where
  | inserted
  | skipped
  | violated
  deriving DecidableEq

namespace Store

variable {ρ κ ℓ : Type}

def own (store : Store ρ ℓ) (client : ℕ) : List ρ := (store.pending.filter fun entry => entry.1 = client).map Prod.snd

def visible (store : Store ρ ℓ) (client : ℕ) : List ρ := store.committed ++ store.own client

def Clash (tables : Tables ρ κ ℓ) (row other : ρ) : Prop := ∃ key ∈ tables.keys row, key ∈ tables.keys other

instance [DecidableEq κ] (tables : Tables ρ κ ℓ) (row other : ρ) : Decidable (Clash tables row other) :=
  inferInstanceAs (Decidable (∃ key ∈ tables.keys row, key ∈ tables.keys other))

def group [DecidableEq ℓ] (tables : Tables ρ κ ℓ) (lock : ℓ) (rows : List ρ) : List ρ := rows.filter fun row => tables.guard row = lock

/-- `INSERT … ON CONFLICT (arbiters) DO NOTHING`. The row's lock comes with it. -/
def insert [DecidableEq κ] (tables : Tables ρ κ ℓ) (client : ℕ) (arbiters : κ → Bool) (row : ρ) (store : Store ρ ℓ) :
    Option (Store ρ ℓ × Inserted) :=
  if ∃ other ∈ store.visible client, ∃ key ∈ tables.keys row, arbiters key = true ∧ key ∈ tables.keys other then
    some (store, .skipped)
  else if ∃ other ∈ store.visible client, Clash tables row other then
    some ({ store with broken := client :: store.broken }, .violated)
  else if ∃ entry ∈ store.pending, entry.1 ≠ client ∧ Clash tables row entry.2 then none
  else
    some ({ store with
      pending := store.pending ++ [(client, row)]
      locks := store.locks ++ [(client, tables.guard row)] }, .inserted)

/-- `SELECT … FOR UPDATE` of a row that the client sees. -/
def lock [DecidableEq ℓ] (client : ℕ) (name : ℓ) (store : Store ρ ℓ) : Option (Store ρ ℓ) :=
  if ∃ entry ∈ store.locks, entry.1 ≠ client ∧ entry.2 = name then none
  else some { store with locks := store.locks ++ [(client, name)] }

def rollback (client : ℕ) (store : Store ρ ℓ) : Store ρ ℓ :=
  { store with
    pending := store.pending.filter fun entry => entry.1 ≠ client
    locks := store.locks.filter fun entry => entry.1 ≠ client
    broken := store.broken.filter fun other => other ≠ client }

def commit (client : ℕ) (store : Store ρ ℓ) : Store ρ ℓ :=
  if client ∈ store.broken then store.rollback client
  else { store.rollback client with committed := store.committed ++ store.own client }

theorem Clash.symm {tables : Tables ρ κ ℓ} {row other : ρ} (clash : Clash tables row other) : Clash tables other row := by
  obtain ⟨key, first, second⟩ := clash
  exact ⟨key, second, first⟩

variable {store after : Store ρ ℓ} {client other : ℕ} {row : ρ} {name : ℓ} {tables : Tables ρ κ ℓ}

theorem mem_own : row ∈ store.own client ↔ (client, row) ∈ store.pending := by
  unfold own
  constructor
  · intro member
    obtain ⟨⟨holder, found⟩, kept, rfl⟩ := List.mem_map.1 member
    have same : holder = client := by simpa using (List.mem_filter.1 kept).2
    subst same
    exact (List.mem_filter.1 kept).1
  · intro member
    exact List.mem_map.2 ⟨(client, row), List.mem_filter.2 ⟨member, by simp⟩, rfl⟩

theorem mem_visible : row ∈ store.visible client ↔ row ∈ store.committed ∨ (client, row) ∈ store.pending := by
  rw [visible, List.mem_append, mem_own]

theorem own_append (store : Store ρ ℓ) (holder : ℕ) (row : ρ) (locks : List (ℕ × ℓ)) (client : ℕ) :
    own { store with pending := store.pending ++ [(holder, row)], locks := locks } client =
      if holder = client then store.own client ++ [row] else store.own client := by
  unfold own
  by_cases same : holder = client
  · simp [same]
  · simp [same]

theorem own_rollback (store : Store ρ ℓ) (holder client : ℕ) :
    (store.rollback holder).own client = if holder = client then [] else store.own client := by
  unfold own rollback
  by_cases same : holder = client
  · subst same
    simp [List.filter_filter]
  · rw [if_neg same, List.filter_filter]
    congr 2
    funext entry
    by_cases mine : entry.1 = client
    · simp [mine, Ne.symm same]
    · simp [mine]

theorem group_append [DecidableEq ℓ] (tables : Tables ρ κ ℓ) (name : ℓ) (first second : List ρ) :
    group tables name (first ++ second) = group tables name first ++ group tables name second := List.filter_append ..

theorem mem_group [DecidableEq ℓ] {rows : List ρ} : row ∈ group tables name rows ↔ row ∈ rows ∧ tables.guard row = name := by
  simp [group]

theorem group_eq_nil [DecidableEq ℓ] {rows : List ρ} (none_ : ∀ row ∈ rows, tables.guard row ≠ name) : group tables name rows = [] :=
  List.filter_eq_nil_iff.2 fun row member => by simpa using none_ row member

theorem insert_cases [DecidableEq κ] {arbiters : κ → Bool} {reply : Inserted}
    (runs : store.insert tables client arbiters row = some (after, reply)) :
    (reply = .skipped ∧ after = store ∧
        ∃ other ∈ store.visible client, ∃ key ∈ tables.keys row, arbiters key = true ∧ key ∈ tables.keys other) ∨
      (reply = .violated ∧ after = { store with broken := client :: store.broken } ∧
        (∃ other ∈ store.visible client, Clash tables row other) ∧
          ∀ other ∈ store.visible client, ∀ key ∈ tables.keys row, arbiters key = true → key ∉ tables.keys other) ∨
      (reply = .inserted ∧
        after = { store with
          pending := store.pending ++ [(client, row)]
          locks := store.locks ++ [(client, tables.guard row)] } ∧
        (∀ other ∈ store.visible client, ¬Clash tables row other) ∧
          ∀ entry ∈ store.pending, entry.1 ≠ client → ¬Clash tables row entry.2) := by
  unfold insert at runs
  by_cases skips : ∃ other ∈ store.visible client, ∃ key ∈ tables.keys row, arbiters key = true ∧ key ∈ tables.keys other
  · rw [if_pos skips] at runs
    cases runs
    exact Or.inl ⟨rfl, rfl, skips⟩
  · rw [if_neg skips] at runs
    by_cases fails : ∃ other ∈ store.visible client, Clash tables row other
    · rw [if_pos fails] at runs
      cases runs
      refine Or.inr (Or.inl ⟨rfl, rfl, fails, fun other seen key has arbiter clash => skips ?_⟩)
      exact ⟨other, seen, key, has, arbiter, clash⟩
    · rw [if_neg fails] at runs
      by_cases waits : ∃ entry ∈ store.pending, entry.1 ≠ client ∧ Clash tables row entry.2
      · rw [if_pos waits] at runs
        cases runs
      · rw [if_neg waits] at runs
        cases runs
        refine Or.inr (Or.inr ⟨rfl, rfl, fun other seen clash => fails ⟨other, seen, clash⟩, ?_⟩)
        exact fun entry member apart clash => waits ⟨entry, member, apart, clash⟩

theorem lock_cases [DecidableEq ℓ] (runs : store.lock client name = some after) :
    after = { store with locks := store.locks ++ [(client, name)] } ∧ ∀ entry ∈ store.locks, entry.2 = name → entry.1 = client := by
  unfold lock at runs
  by_cases waits : ∃ entry ∈ store.locks, entry.1 ≠ client ∧ entry.2 = name
  · rw [if_pos waits] at runs
    cases runs
  · rw [if_neg waits] at runs
    cases runs
    refine ⟨rfl, fun entry member same => ?_⟩
    by_contra apart
    exact waits ⟨entry, member, apart, same⟩

structure WellFormed (tables : Tables ρ κ ℓ) (store : Store ρ ℓ) : Prop where
  unique : (store.committed ++ store.pending.map Prod.snd).Pairwise fun row other => ¬Clash tables row other
  exclusive : ∀ first ∈ store.locks, ∀ second ∈ store.locks, first.2 = second.2 → first.1 = second.1
  anchored : ∀ entry ∈ store.locks, ∃ row ∈ store.visible entry.1, tables.anchor entry.2 ∈ tables.keys row
  guarded : ∀ entry ∈ store.pending, (entry.1, tables.guard entry.2) ∈ store.locks

theorem wellFormed_empty (tables : Tables ρ κ ℓ) : WellFormed tables {} :=
  ⟨List.Pairwise.nil, by simp, by simp, by simp⟩

namespace WellFormed

theorem eq_of_clash (formed : WellFormed tables store) (key : κ) {first second : ρ} (sees : first ∈ store.visible client)
    (seesToo : second ∈ store.visible client) (has : key ∈ tables.keys first) (hasToo : key ∈ tables.keys second) :
    first = second := by
  have everywhere : ∀ row ∈ store.visible client, row ∈ store.committed ++ store.pending.map Prod.snd := by
    intro row seen
    rcases mem_visible.1 seen with committed | pending
    · exact List.mem_append_left _ committed
    · exact List.mem_append_right _ (List.mem_map.2 ⟨_, pending, rfl⟩)
  have symm : Std.Symm fun row other => ¬Clash tables row other := ⟨fun _ _ apart clash => apart clash.symm⟩
  by_contra apart
  exact formed.unique.forall (everywhere first sees) (everywhere second seesToo) apart ⟨key, has, hasToo⟩

theorem group_own [DecidableEq ℓ] (formed : WellFormed tables store) (free : (client, name) ∉ store.locks) :
    group tables name (store.own client) = [] := by
  apply group_eq_nil
  rintro row member rfl
  exact free (formed.guarded (client, row) (mem_own.1 member))

theorem insert [DecidableEq κ] (formed : WellFormed tables store) {arbiters : κ → Bool} {reply : Inserted}
    (opens : (client, tables.guard row) ∈ store.locks ∨ tables.anchor (tables.guard row) ∈ tables.keys row)
    (runs : store.insert tables client arbiters row = some (after, reply)) : WellFormed tables after := by
  rcases insert_cases runs with ⟨-, rfl, -⟩ | ⟨-, rfl, -⟩ | ⟨-, rfl, apart, waits⟩
  · exact formed
  · exact ⟨formed.unique, formed.exclusive, formed.anchored, formed.guarded⟩
  · have others : ∀ entry ∈ store.pending, ¬Clash tables row entry.2 := by
      intro entry member
      by_cases mine : entry.1 = client
      · subst mine
        exact apart entry.2 (mem_visible.2 (Or.inr member))
      · exact waits entry member mine
    -- another holder would see the row that the lock is on, which is this one
    have mine : ∀ entry ∈ store.locks, entry.2 = tables.guard row → entry.1 = client := by
      intro entry member same
      rcases opens with held | anchors
      · exact formed.exclusive entry member _ held same
      · obtain ⟨found, seen, anchored⟩ := formed.anchored entry member
        rw [same] at anchored
        rcases mem_visible.1 seen with committed | pending
        · exact absurd ⟨_, anchors, anchored⟩ (apart found (mem_visible.2 (Or.inl committed)))
        · exact absurd ⟨_, anchors, anchored⟩ (others _ pending)
    have grows : ∀ holder seen, seen ∈ store.visible holder →
        seen ∈ visible { store with
          pending := store.pending ++ [(client, row)]
          locks := store.locks ++ [(client, tables.guard row)] } holder := by
      intro holder seen member
      rcases mem_visible.1 member with committed | pending
      · exact mem_visible.2 (Or.inl committed)
      · exact mem_visible.2 (Or.inr (List.mem_append_left _ pending))
    refine ⟨?_, fun first one second two same => ?_, fun entry member => ?_, fun entry member => ?_⟩
    · rw [List.map_append, ← List.append_assoc, List.pairwise_append]
      refine ⟨formed.unique, List.pairwise_singleton _ _, fun earlier member last new clash => ?_⟩
      rw [List.map_cons, List.map_nil, List.mem_singleton] at new
      subst new
      rcases List.mem_append.1 member with committed | pending
      · exact apart earlier (mem_visible.2 (Or.inl committed)) clash.symm
      · obtain ⟨entry, found, rfl⟩ := List.mem_map.1 pending
        exact others entry found clash.symm
    · rcases List.mem_append.1 one with one | one <;> rcases List.mem_append.1 two with two | two
      · exact formed.exclusive first one second two same
      · rw [List.mem_singleton.1 two] at same ⊢
        exact mine first one same
      · rw [List.mem_singleton.1 one] at same ⊢
        exact (mine second two same.symm).symm
      · rw [List.mem_singleton.1 one, List.mem_singleton.1 two]
    · rcases List.mem_append.1 member with old | new
      · obtain ⟨found, seen, anchored⟩ := formed.anchored entry old
        exact ⟨found, grows _ _ seen, anchored⟩
      · rw [List.mem_singleton.1 new]
        rcases opens with held | anchors
        · obtain ⟨found, seen, anchored⟩ := formed.anchored _ held
          exact ⟨found, grows _ _ seen, anchored⟩
        · exact ⟨row, mem_visible.2 (Or.inr (List.mem_append_right _ (List.mem_singleton.2 rfl))), anchors⟩
    · rcases List.mem_append.1 member with old | new
      · exact List.mem_append_left _ (formed.guarded entry old)
      · rw [List.mem_singleton.1 new]
        exact List.mem_append_right _ (List.mem_singleton.2 rfl)

theorem lock [DecidableEq ℓ] (formed : WellFormed tables store)
    (anchored : ∃ row ∈ store.visible client, tables.anchor name ∈ tables.keys row)
    (runs : store.lock client name = some after) : WellFormed tables after := by
  obtain ⟨rfl, mine⟩ := lock_cases runs
  refine ⟨formed.unique, fun first one second two same => ?_, fun entry member => ?_, fun entry member => ?_⟩
  · rcases List.mem_append.1 one with one | one <;> rcases List.mem_append.1 two with two | two
    · exact formed.exclusive first one second two same
    · rw [List.mem_singleton.1 two] at same ⊢
      exact mine first one same
    · rw [List.mem_singleton.1 one] at same ⊢
      exact (mine second two same.symm).symm
    · rw [List.mem_singleton.1 one, List.mem_singleton.1 two]
  · rcases List.mem_append.1 member with old | new
    · exact formed.anchored entry old
    · rw [List.mem_singleton.1 new]
      exact anchored
  · exact List.mem_append_left _ (formed.guarded entry member)

theorem rollback (formed : WellFormed tables store) (client : ℕ) : WellFormed tables (store.rollback client) := by
  refine ⟨?_, fun first one second two same => ?_, fun entry member => ?_, fun entry member => ?_⟩
  · refine formed.unique.sublist (List.Sublist.append_left ?_ store.committed)
    exact List.Sublist.map Prod.snd List.filter_sublist
  · exact formed.exclusive first (List.mem_filter.1 one).1 second (List.mem_filter.1 two).1 same
  · obtain ⟨old, apart⟩ := List.mem_filter.1 member
    obtain ⟨found, seen, anchored⟩ := formed.anchored entry old
    refine ⟨found, mem_visible.2 ((mem_visible.1 seen).imp_right fun pending => ?_), anchored⟩
    exact List.mem_filter.2 ⟨pending, by simpa using apart⟩
  · obtain ⟨old, apart⟩ := List.mem_filter.1 member
    exact List.mem_filter.2 ⟨formed.guarded entry old, by simpa using apart⟩

theorem commit (formed : WellFormed tables store) (client : ℕ) : WellFormed tables (store.commit client) := by
  unfold Store.commit
  by_cases failed : client ∈ store.broken
  · rw [if_pos failed]
    exact formed.rollback client
  · rw [if_neg failed]
    have rolled := formed.rollback client
    refine ⟨?_, rolled.exclusive, fun entry member => ?_, rolled.guarded⟩
    · have moved : (store.committed ++ store.own client ++ (store.rollback client).pending.map Prod.snd).Perm
          (store.committed ++ store.pending.map Prod.snd) := by
        rw [List.append_assoc]
        apply List.Perm.append_left
        rw [own, ← List.map_append]
        apply List.Perm.map
        have parts := List.filter_append_perm (fun entry : ℕ × ρ => decide (entry.1 = client)) store.pending
        simpa [Store.rollback] using parts
      exact (List.Perm.pairwise_iff (fun apart clash => apart clash.symm) moved).2 formed.unique
    · obtain ⟨found, seen, anchored⟩ := rolled.anchored entry member
      refine ⟨found, mem_visible.2 ((mem_visible.1 seen).imp_left fun committed => ?_), anchored⟩
      exact List.mem_append_left _ committed

end WellFormed

structure SameSession (client : ℕ) (before after : Store ρ ℓ) : Prop where
  own : after.own client = before.own client
  locks : ∀ name, (client, name) ∈ after.locks ↔ (client, name) ∈ before.locks
  broken : client ∈ after.broken ↔ client ∈ before.broken

theorem SameSession.refl (client : ℕ) (store : Store ρ ℓ) : SameSession client store store := ⟨rfl, fun _ => Iff.rfl, Iff.rfl⟩

theorem SameSession.trans {client : ℕ} {first second third : Store ρ ℓ} (one : SameSession client first second)
    (two : SameSession client second third) : SameSession client first third :=
  ⟨two.own.trans one.own, fun name => (two.locks name).trans (one.locks name), two.broken.trans one.broken⟩

theorem sameSession_rollback {other : ℕ} (apart : other ≠ client) : SameSession other store (store.rollback client) := by
  refine ⟨?_, fun name => ?_, ?_⟩
  · rw [own_rollback, if_neg (Ne.symm apart)]
  · simp [Store.rollback, apart]
  · simp [Store.rollback, apart]

section Groups

variable [DecidableEq ℓ] (tables : Tables ρ κ ℓ) (fit : ℓ → List ρ → Prop)

structure Sound (store : Store ρ ℓ) : Prop where
  formed : WellFormed tables store
  fits : ∀ name, fit name (group tables name store.committed)

/-- Unless its transaction has failed, the rows that the client sees under its locks fit together. -/
def Settled (client : ℕ) (store : Store ρ ℓ) : Prop :=
  client ∉ store.broken → ∀ name, (client, name) ∈ store.locks → fit name (group tables name (store.visible client))

/-- What a client sees while others run: rows that it has no lock of are committed. -/
structure Rely (client : ℕ) (before after : Store ρ ℓ) : Prop where
  sound : Sound tables fit before → Sound tables fit after
  same : SameSession client before after
  commits : ∃ rows, after.committed = before.committed ++ rows ∧ ∀ row ∈ rows, (client, tables.guard row) ∉ before.locks

structure Guar (client : ℕ) (before after : Store ρ ℓ) : Prop where
  sound : Sound tables fit after
  committed : after.committed = before.committed
  others : ∀ other, other ≠ client → SameSession other before after

variable {tables fit}

theorem Rely.refl (client : ℕ) (store : Store ρ ℓ) : Rely tables fit client store store :=
  ⟨id, SameSession.refl client store, [], by simp, by simp⟩

theorem Rely.trans (client : ℕ) (first second third : Store ρ ℓ) (one : Rely tables fit client first second)
    (two : Rely tables fit client second third) : Rely tables fit client first third := by
  obtain ⟨rows, grown, apart⟩ := one.commits
  obtain ⟨more, grownMore, apartMore⟩ := two.commits
  refine ⟨two.sound ∘ one.sound, one.same.trans two.same, rows ++ more, ?_, fun row member => ?_⟩
  · rw [grownMore, grown, List.append_assoc]
  · rcases List.mem_append.1 member with old | new
    · exact apart row old
    · exact fun held => apartMore row new ((one.same.locks _).2 held)

theorem Rely.committed_prefix (rely : Rely tables fit client store after) : store.committed <+: after.committed := by
  obtain ⟨rows, grown, -⟩ := rely.commits
  exact ⟨rows, grown.symm⟩

theorem Rely.mem_visible (rely : Rely tables fit client store after) (sees : row ∈ store.visible client) :
    row ∈ after.visible client := by
  rcases List.mem_append.1 sees with committed | own
  · exact List.mem_append_left _ (rely.committed_prefix.subset committed)
  · exact List.mem_append_right _ (by rw [rely.same.own]; exact own)

theorem Rely.group_visible (rely : Rely tables fit client store after) (held : (client, name) ∈ store.locks) :
    group tables name (after.visible client) = group tables name (store.visible client) := by
  obtain ⟨rows, grown, apart⟩ := rely.commits
  have none_ : group tables name rows = [] := by
    apply group_eq_nil
    rintro row member rfl
    exact apart row member held
  rw [visible, visible, group_append, group_append, grown, group_append, none_, List.append_nil, rely.same.own]

theorem Settled.later (settled : Settled tables fit client store) (rely : Rely tables fit client store after) :
    Settled tables fit client after := by
  intro working name held
  have before := (rely.same.locks name).1 held
  rw [rely.group_visible before]
  exact settled (fun failed => working (rely.same.broken.2 failed)) name before

theorem Sound.fits_visible (sound : Sound tables fit store) (settled : Settled tables fit client store)
    (working : client ∉ store.broken) (name : ℓ) : fit name (group tables name (store.visible client)) := by
  by_cases held : (client, name) ∈ store.locks
  · exact settled working name held
  · rw [visible, group_append, sound.formed.group_own held, List.append_nil]
    exact sound.fits name

theorem Guar.rely (guar : Guar tables fit client store after) {other : ℕ} (apart : other ≠ client) :
    Rely tables fit other store after :=
  ⟨fun _ => guar.sound, guar.others other apart, [], by rw [guar.committed, List.append_nil], by simp⟩

theorem Guar.refl (sound : Sound tables fit store) : Guar tables fit client store store :=
  ⟨sound, rfl, fun other _ => SameSession.refl other store⟩

theorem Sound.insert [DecidableEq κ] (sound : Sound tables fit store) {arbiters : κ → Bool} {reply : Inserted}
    (opens : (client, tables.guard row) ∈ store.locks ∨ tables.anchor (tables.guard row) ∈ tables.keys row)
    (runs : store.insert tables client arbiters row = some (after, reply)) : Guar tables fit client store after := by
  have formed := sound.formed.insert opens runs
  rcases insert_cases runs with ⟨-, rfl, -⟩ | ⟨-, rfl, -⟩ | ⟨-, rfl, -, -⟩
  · exact Guar.refl sound
  · refine ⟨⟨formed, sound.fits⟩, rfl, fun other apart => ⟨rfl, fun _ => Iff.rfl, ?_⟩⟩
    exact List.mem_cons.trans (or_iff_right apart)
  · refine ⟨⟨formed, sound.fits⟩, rfl, fun other apart => ⟨?_, fun name => ?_, Iff.rfl⟩⟩
    · rw [own_append, if_neg (Ne.symm apart)]
    · simp [apart]

theorem Sound.lock (sound : Sound tables fit store) (anchored : ∃ row ∈ store.visible client, tables.anchor name ∈ tables.keys row)
    (runs : store.lock client name = some after) : Guar tables fit client store after := by
  have formed := sound.formed.lock anchored runs
  obtain ⟨rfl, -⟩ := lock_cases runs
  refine ⟨⟨formed, sound.fits⟩, rfl, fun other apart => ⟨rfl, fun name => ?_, Iff.rfl⟩⟩
  simp [apart]

theorem settled_rollback (client : ℕ) (store : Store ρ ℓ) : Settled tables fit client (store.rollback client) := by
  intro working name held
  simp [Store.rollback] at held

theorem Sound.rollback (sound : Sound tables fit store) (client : ℕ) : Sound tables fit (store.rollback client) :=
  ⟨sound.formed.rollback client, sound.fits⟩

theorem Sound.rely_rollback (sound : Sound tables fit store) {other : ℕ} (apart : other ≠ client) :
    Rely tables fit other store (store.rollback client) :=
  ⟨fun _ => sound.rollback client, sameSession_rollback apart, [], by simp [Store.rollback], by simp⟩

theorem Sound.commit (sound : Sound tables fit store) (settled : Settled tables fit client store) :
    Sound tables fit (store.commit client) := by
  refine ⟨sound.formed.commit client, fun name => ?_⟩
  unfold Store.commit
  by_cases failed : client ∈ store.broken
  · rw [if_pos failed]
    exact sound.fits name
  · rw [if_neg failed]
    exact sound.fits_visible settled failed name

theorem settled_commit (client : ℕ) (store : Store ρ ℓ) : Settled tables fit client (store.commit client) := by
  unfold Store.commit
  by_cases failed : client ∈ store.broken
  · rw [if_pos failed]
    exact settled_rollback client store
  · rw [if_neg failed]
    intro working name held
    simp [Store.rollback] at held

theorem Sound.rely_commit (sound : Sound tables fit store) (settled : Settled tables fit client store) {other : ℕ}
    (apart : other ≠ client) : Rely tables fit other store (store.commit client) := by
  have kept := sound.commit settled
  refine ⟨fun _ => kept, ?_, ?_⟩
  · unfold Store.commit
    by_cases failed : client ∈ store.broken
    · rw [if_pos failed]
      exact sameSession_rollback apart
    · rw [if_neg failed]
      obtain ⟨own, locks, broken⟩ := @sameSession_rollback _ _ store client other apart
      exact ⟨own, locks, broken⟩
  · unfold Store.commit
    by_cases failed : client ∈ store.broken
    · rw [if_pos failed]
      exact ⟨[], by simp [Store.rollback], by simp⟩
    · rw [if_neg failed]
      refine ⟨store.own client, rfl, fun row member held => apart ?_⟩
      exact sound.formed.exclusive _ held _ (sound.formed.guarded _ (mem_own.1 member)) rfl

/-- The transaction of the client works and is as it was at the start of a program. -/
structure Ready (tables : Tables ρ κ ℓ) (fit : ℓ → List ρ → Prop) (client : ℕ) (start store : Store ρ ℓ) : Prop where
  sound : Sound tables fit store
  working : client ∉ store.broken
  settled : Settled tables fit client store
  own : store.own client = start.own client
  committed : start.committed <+: store.committed

theorem Ready.later {start : Store ρ ℓ} (ready : Ready tables fit client start store) (rely : Rely tables fit client store after) :
    Ready tables fit client start after :=
  ⟨rely.sound ready.sound, fun failed => ready.working (rely.same.broken.1 failed), ready.settled.later rely,
    rely.same.own.trans ready.own, ready.committed.trans rely.committed_prefix⟩

theorem Ready.mem_visible {start : Store ρ ℓ} (ready : Ready tables fit client start store) (sees : row ∈ start.visible client) :
    row ∈ store.visible client := by
  rcases List.mem_append.1 sees with committed | own
  · exact List.mem_append_left _ (ready.committed.subset committed)
  · exact List.mem_append_right _ (by rw [ready.own]; exact own)

theorem Ready.fits {start : Store ρ ℓ} (ready : Ready tables fit client start store) (name : ℓ) :
    fit name (group tables name (store.visible client)) :=
  ready.sound.fits_visible ready.settled ready.working name

theorem Ready.lock {start : Store ρ ℓ} (ready : Ready tables fit client start store) (sound : Sound tables fit after)
    (runs : store.lock client name = some after) : Ready tables fit client start after := by
  obtain ⟨rfl, -⟩ := lock_cases runs
  exact ⟨sound, ready.working, fun _ name _ => ready.fits name, ready.own, ready.committed⟩

/-- The transaction of the client has failed, with the rows it had written since the start of a program. -/
structure Failed (tables : Tables ρ κ ℓ) (fit : ℓ → List ρ → Prop) (client : ℕ) (start : Store ρ ℓ) (rows : List ρ)
    (store : Store ρ ℓ) : Prop where
  sound : Sound tables fit store
  broken : client ∈ store.broken
  own : store.own client = start.own client ++ rows

/-- The client has written rows under a lock since the start of a program, and sees more under it. -/
structure Writing (tables : Tables ρ κ ℓ) (fit : ℓ → List ρ → Prop) (client : ℕ) (name : ℓ) (start : Store ρ ℓ) (rows seen : List ρ)
    (store : Store ρ ℓ) : Prop where
  sound : Sound tables fit store
  working : client ∉ store.broken
  held : (client, name) ∈ store.locks
  settled : ∀ other, other ≠ name → (client, other) ∈ store.locks → fit other (group tables other (store.visible client))
  own : store.own client = start.own client ++ rows
  committed : start.committed <+: store.committed
  seen : group tables name (store.visible client) = seen

variable {start : Store ρ ℓ} {rows seen : List ρ}

theorem Failed.later (failed : Failed tables fit client start rows store) (rely : Rely tables fit client store after) :
    Failed tables fit client start rows after :=
  ⟨rely.sound failed.sound, rely.same.broken.2 failed.broken, rely.same.own.trans failed.own⟩

theorem Failed.settled (failed : Failed tables fit client start rows store) : Settled tables fit client store :=
  fun working => absurd failed.broken working

theorem Writing.later (writing : Writing tables fit client name start rows seen store) (rely : Rely tables fit client store after) :
    Writing tables fit client name start rows seen after := by
  have working : client ∉ after.broken := fun failed => writing.working (rely.same.broken.1 failed)
  refine ⟨rely.sound writing.sound, working, (rely.same.locks name).2 writing.held, fun other apart held => ?_,
    rely.same.own.trans writing.own, writing.committed.trans rely.committed_prefix, ?_⟩
  · have before := (rely.same.locks other).1 held
    rw [rely.group_visible before]
    exact writing.settled other apart before
  · rw [rely.group_visible writing.held]
    exact writing.seen

theorem Writing.settle (writing : Writing tables fit client name start rows seen store) (fits : fit name seen) :
    Settled tables fit client store := by
  intro _ other held
  by_cases same : other = name
  · subst same
    rw [writing.seen]
    exact fits
  · exact writing.settled other same held

theorem Writing.mem_visible (writing : Writing tables fit client name start rows seen store) (member : row ∈ seen) :
    row ∈ store.visible client := by
  rw [← writing.seen] at member
  exact (mem_group.1 member).1

theorem writing_insert (sound : Sound tables fit after) (working : client ∉ store.broken)
    (settled : ∀ other, other ≠ tables.guard row → (client, other) ∈ store.locks → fit other (group tables other (store.visible client)))
    (own : store.own client = start.own client ++ rows) (committed : start.committed <+: store.committed)
    (added : after = { store with
      pending := store.pending ++ [(client, row)]
      locks := store.locks ++ [(client, tables.guard row)] }) :
    Writing tables fit client (tables.guard row) start (rows ++ [row])
      (group tables (tables.guard row) (store.visible client) ++ [row]) after := by
  subst added
  have visible : ∀ other, group tables other (visible { store with
      pending := store.pending ++ [(client, row)]
      locks := store.locks ++ [(client, tables.guard row)] } client) =
        group tables other (store.visible client) ++ group tables other [row] := by
    intro other
    rw [← group_append, Store.visible, Store.visible, own_append, if_pos rfl, List.append_assoc]
  refine ⟨sound, working, List.mem_append_right _ (List.mem_singleton.2 rfl), fun other apart held => ?_, ?_, committed, ?_⟩
  · have before : (client, other) ∈ store.locks := by
      rcases List.mem_append.1 held with old | new
      · exact old
      · exact absurd (congrArg Prod.snd (List.mem_singleton.1 new)) apart
    have none_ : group tables other [row] = [] := group_eq_nil (by simpa using Ne.symm apart)
    rw [visible, none_, List.append_nil]
    exact settled other apart before
  · rw [own_append, if_pos rfl, own, List.append_assoc]
  · rw [visible]
    simp [group]

end Groups

section Programs

variable [DecidableEq ℓ] {ι χ α β : Type} {tables : Tables ρ κ ℓ} {fit : ℓ → List ρ → Prop} {start : Store ρ ℓ}
  {post : α → Store ρ ℓ → Prop}

/-- `SELECT … FOR UPDATE`: the row that is found is locked, and nothing where none is. -/
def selectForUpdate (client : ℕ) (name : ℓ) (look : Store ρ ℓ → Option β) (_ : ι) (store : Store ρ ℓ) :
    Option (Store ρ ℓ × Option β) :=
  match look store with
  | none => some (store, none)
  | some row => (store.lock client name).map fun locked => (locked, some row)

theorem Ready.read (ready : Ready tables fit client start store) {look : Store ρ ℓ → β} {next : β → Task (Store ρ ℓ) ι α}
    (goes : ∀ later, Rely tables fit client store later → Ready tables fit client start later →
      (next (look later)).Keeps (Rely tables fit client) (Guar tables fit client) post later) :
    (Task.read look next).Keeps (Rely tables fit client) (Guar tables fit client) post store := by
  intro later rely _ after reply taken
  cases taken
  have kept := ready.later rely
  exact ⟨Guar.refl kept.sound, goes later rely kept⟩

theorem Ready.selectForUpdate (ready : Ready tables fit client start store) {look : Store ρ ℓ → Option β}
    {next : Option β → Task (Store ρ ℓ) ι α}
    (anchored : ∀ later row, look later = some row → ∃ row ∈ later.visible client, tables.anchor name ∈ tables.keys row)
    (missing : ∀ later, Ready tables fit client start later → look later = none →
      (next none).Keeps (Rely tables fit client) (Guar tables fit client) post later)
    (found : ∀ later row locked, look later = some row → (client, name) ∈ locked.locks →
      locked.visible client = later.visible client → Ready tables fit client start locked →
      (next (some row)).Keeps (Rely tables fit client) (Guar tables fit client) post locked) :
    (Task.step (Store.selectForUpdate client name look) next).Keeps (Rely tables fit client) (Guar tables fit client) post
      store := by
  intro later rely _ after reply taken
  have kept := ready.later rely
  unfold Store.selectForUpdate at taken
  cases looked : look later with
  | none =>
    simp only [looked] at taken
    cases taken
    exact ⟨Guar.refl kept.sound, missing later kept looked⟩
  | some row =>
    simp only [looked] at taken
    cases locks : later.lock client name with
    | none =>
      rw [locks] at taken
      cases taken
    | some locked =>
      rw [locks] at taken
      cases taken
      have guar := kept.sound.lock (anchored later row looked) locks
      have still := kept.lock guar.sound locks
      obtain ⟨rfl, -⟩ := lock_cases locks
      exact ⟨guar, found later row _ looked (List.mem_append_right _ (List.mem_singleton.2 rfl)) rfl still⟩

def insertWith [DecidableEq κ] (tables : Tables ρ κ ℓ) (client : ℕ) (arbiters : κ → Bool) (row : ι → ρ) (input : ι)
    (store : Store ρ ℓ) : Option (Store ρ ℓ × (ι × Inserted)) :=
  (store.insert tables client arbiters (row input)).map fun result => (result.1, (input, result.2))

theorem Ready.insert [DecidableEq κ] (ready : Ready tables fit client start store) {arbiters : κ → Bool} {row : ι → ρ}
    {next : ι × Inserted → Task (Store ρ ℓ) ι α}
    (opens : ∀ later input, Rely tables fit client store later →
      (client, tables.guard (row input)) ∈ later.locks ∨ tables.anchor (tables.guard (row input)) ∈ tables.keys (row input))
    (skipped : ∀ later input, Rely tables fit client store later → Ready tables fit client start later →
      (∃ other ∈ later.visible client, ∃ key ∈ tables.keys (row input), arbiters key = true ∧ key ∈ tables.keys other) →
      (next (input, .skipped)).Keeps (Rely tables fit client) (Guar tables fit client) post later)
    (violated : ∀ later input after, Ready tables fit client start later →
      (∀ other ∈ later.visible client, ∀ key ∈ tables.keys (row input), arbiters key = true → key ∉ tables.keys other) →
      Failed tables fit client start [] after →
      (next (input, .violated)).Keeps (Rely tables fit client) (Guar tables fit client) post after)
    (inserted : ∀ later input after, Rely tables fit client store later → Ready tables fit client start later →
      (∀ other ∈ later.visible client, ¬Clash tables (row input) other) →
      Writing tables fit client (tables.guard (row input)) start [row input]
        (group tables (tables.guard (row input)) (later.visible client) ++ [row input]) after →
      (next (input, .inserted)).Keeps (Rely tables fit client) (Guar tables fit client) post after) :
    (Task.step (Store.insertWith tables client arbiters row) next).Keeps (Rely tables fit client) (Guar tables fit client) post
      store := by
  intro later rely input after reply taken
  have kept := ready.later rely
  obtain ⟨⟨moved, outcome⟩, runs, same⟩ := Option.map_eq_some_iff.1 taken
  cases same
  have guar := kept.sound.insert (opens later input rely) runs
  refine ⟨guar, ?_⟩
  rcases insert_cases runs with ⟨rfl, rfl, found⟩ | ⟨rfl, rfl, -, free⟩ | ⟨rfl, added, apart, -⟩
  · exact skipped _ input rely kept found
  · exact violated later input _ kept free ⟨guar.sound, List.mem_cons_self, by rw [List.append_nil]; exact kept.own⟩
  · have own : later.own client = start.own client ++ [] := by rw [kept.own, List.append_nil]
    refine inserted later input _ rely kept apart ?_
    exact writing_insert guar.sound kept.working (fun other _ _ => kept.fits other) own kept.committed added

theorem Writing.insert [DecidableEq κ] {rows seen : List ρ} (writing : Writing tables fit client name start rows seen store)
    {row : ι → ρ} {next : ι × Inserted → Task (Store ρ ℓ) ι α} (guards : ∀ input, tables.guard (row input) = name)
    (violated : ∀ later input, Failed tables fit client start rows later →
      (next (input, .violated)).Keeps (Rely tables fit client) (Guar tables fit client) post later)
    (inserted : ∀ later input, Writing tables fit client name start (rows ++ [row input]) (seen ++ [row input]) later →
      (next (input, .inserted)).Keeps (Rely tables fit client) (Guar tables fit client) post later) :
    (Task.step (Store.insertWith tables client (fun _ => false) row) next).Keeps (Rely tables fit client) (Guar tables fit client)
      post store := by
  intro later rely input after reply taken
  have kept := writing.later rely
  obtain ⟨⟨moved, outcome⟩, runs, same⟩ := Option.map_eq_some_iff.1 taken
  cases same
  have guar := kept.sound.insert (Or.inl (by rw [guards input]; exact kept.held)) runs
  refine ⟨guar, ?_⟩
  rcases insert_cases runs with ⟨-, -, other, -, key, -, never, -⟩ | ⟨rfl, rfl, -⟩ | ⟨rfl, added, -, -⟩
  · cases never
  · exact violated _ input ⟨guar.sound, List.mem_cons_self, kept.own⟩
  · have written := writing_insert guar.sound kept.working (by rw [guards input]; exact kept.settled) kept.own kept.committed added
    rw [guards input, kept.seen] at written
    exact inserted _ input written

theorem Writing.read {rows seen : List ρ} (writing : Writing tables fit client name start rows seen store)
    {look : Store ρ ℓ → β} {next : β → Task (Store ρ ℓ) ι α}
    (goes : ∀ later, Writing tables fit client name start rows seen later →
      (next (look later)).Keeps (Rely tables fit client) (Guar tables fit client) post later) :
    (Task.read look next).Keeps (Rely tables fit client) (Guar tables fit client) post store := by
  intro later rely _ after reply taken
  cases taken
  have kept := writing.later rely
  exact ⟨Guar.refl kept.sound, goes later kept⟩

inductive Closing where
  | commit
  | rollback

/-- Clients that run programs in transactions. In one that has failed every statement fails; a client that breaks off loses it. -/
def clients (program : ℕ → χ → Task (Store ρ ℓ) ι α) : Clients (Store ρ ℓ) ι χ Closing α where
  program client call store := if client ∈ store.broken then none else some (program client call)
  operation client closing store :=
    match closing with
    | .commit => store.commit client
    | .rollback => store.rollback client
  abandon client store := store.rollback client

/-- Programs that keep the rows of every lock fitting together where they end, or fail their transaction. -/
def contract (tables : Tables ρ κ ℓ) (fit : ℓ → List ρ → Prop) (program : ℕ → χ → Task (Store ρ ℓ) ι α)
    (post : ℕ → χ → Store ρ ℓ → α → Store ρ ℓ → Prop)
    (ends : ∀ client call start result store, post client call start result store → Settled tables fit client store)
    (programs : ∀ client call store, Ready tables fit client store store →
      (program client call).Keeps (Rely tables fit client) (Guar tables fit client) (post client call store) store) :
    Contract (clients program) where
  inv := Sound tables fit
  idle := Settled tables fit
  rely := Rely tables fit
  guar := Guar tables fit
  post := post
  refl := Rely.refl
  trans := Rely.trans
  kept := fun _ _ _ _ guar => ⟨guar.sound, fun _ apart => guar.rely apart⟩
  stable := fun _ _ _ _ _ settled rely => settled.later rely
  ends := ends
  programs := by
    intro client call store task sound settled starts
    simp only [clients] at starts
    by_cases failed : client ∈ store.broken
    · rw [if_pos failed] at starts
      cases starts
    · rw [if_neg failed] at starts
      cases starts
      exact programs client call store ⟨sound, failed, settled, rfl, List.prefix_refl _⟩
  operations := by
    intro client closing store sound settled
    cases closing with
    | commit => exact ⟨sound.commit settled, settled_commit client store, fun other apart => sound.rely_commit settled apart⟩
    | rollback => exact ⟨sound.rollback client, settled_rollback client store, fun other apart => sound.rely_rollback apart⟩
  abandons := fun client store sound =>
    ⟨sound.rollback client, settled_rollback client store, fun _ apart => sound.rely_rollback apart⟩

theorem contract_start {program : ℕ → χ → Task (Store ρ ℓ) ι α} {post : ℕ → χ → Store ρ ℓ → α → Store ρ ℓ → Prop}
    {ends : ∀ client call start result store, post client call start result store → Settled tables fit client store}
    {programs : ∀ client call store, Ready tables fit client store store →
      (program client call).Keeps (Rely tables fit client) (Guar tables fit client) (post client call store) store}
    (empty : ∀ name, fit name []) : (contract tables fit program post ends programs).Holds { state := {} } := by
  refine ⟨⟨wellFormed_empty tables, empty⟩, fun client _ _ name held => ?_, fun client running runs => ?_, fun entry member => ?_⟩
  · cases held
  · cases runs
  · cases member

end Programs

end Store

end Callisto.Library
