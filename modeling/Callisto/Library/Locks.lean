import Mathlib.Data.Finite.Prod
import Mathlib.Data.Fintype.EquivFin
import Mathlib.Data.Set.Finite.Basic
import Mathlib.Logic.Relation
import Mathlib.Order.WellFounded

/-! Clients that take exclusive locks one after the other, each in the order of its own request, and
keep what they hold until they stop. -/

namespace Callisto.Library.Locks

open Relation

variable {ι κ : Type*}

/-- What a client holds and what it has still to take, each in the order of its request. -/
structure Client (κ : Type*) where
  held : List κ
  todo : List κ

def Client.fresh (request : List κ) : Client κ := ⟨[], request⟩

def Client.take (client : Client κ) : Client κ :=
  match client.todo with
  | [] => client
  | key :: rest => ⟨client.held ++ [key], rest⟩

def Client.letGo (client : Client κ) : Client κ := ⟨client.held.dropLast, []⟩

def Free (state : ι → Client κ) (client : ι) (key : κ) : Prop :=
  ∀ other, other ≠ client → key ∉ (state other).held

/-- A client takes the lock it asks for once it is free, and may stop at any moment. -/
inductive Step [DecidableEq ι] (state : ι → Client κ) : (ι → Client κ) → Prop
  | acquire (client : ι) (key : κ) (rest : List κ) (asks : (state client).todo = key :: rest)
      (free : Free state client key) : Step state (Function.update state client (state client).take)
  | release (client : ι) : Step state (Function.update state client (state client).letGo)

def Reachable [DecidableEq ι] (request : ι → List κ) (state : ι → Client κ) : Prop :=
  ReflTransGen Step (fun client => Client.fresh (request client)) state

def Waits (state : ι → Client κ) (client other : ι) : Prop :=
  ∃ key rest, (state client).todo = key :: rest ∧ other ≠ client ∧ key ∈ (state other).held

def Deadlocked (state : ι → Client κ) : Prop := ∃ client, TransGen (Waits state) client client

def Precedes (request : ι → List κ) (first second : κ) : Prop :=
  ∃ client held todo, request client = held ++ second :: todo ∧ first ∈ held

section
variable [DecidableEq ι] {request : ι → List κ} {state : ι → Client κ}

theorem Reachable.split (reachable : Reachable request state) (client : ι) :
    (state client).todo = [] ∨ (state client).held ++ (state client).todo = request client := by
  induction reachable with
  | refl => exact Or.inr rfl
  | @tail before after _ step ih =>
    cases step with
    | acquire actor key rest asks free =>
      by_cases same : client = actor
      · subst same
        rw [Function.update_self]
        rcases ih with done | split
        · rw [done] at asks
          cases asks
        · refine Or.inr ?_
          rw [← split, asks]
          simp [Client.take, asks]
      · rw [Function.update_of_ne same]
        exact ih
    | release actor =>
      by_cases same : client = actor
      · subst same
        rw [Function.update_self]
        exact Or.inl rfl
      · rw [Function.update_of_ne same]
        exact ih

theorem precedes_of_waits (reachable : Reachable request state) {client other : ι}
    (chain : TransGen (Waits state) client other) {wanted : κ} {rest : List κ}
    (asks : (state other).todo = wanted :: rest) :
    ∃ key tail, (state client).todo = key :: tail ∧ TransGen (Precedes request) key wanted := by
  have link : ∀ {waiter holder : ι} {next : κ} {more : List κ}, Waits state waiter holder →
      (state holder).todo = next :: more →
      ∃ key tail, (state waiter).todo = key :: tail ∧ Precedes request key next := by
    rintro waiter holder next more ⟨key, tail, waiting, -, held⟩ holderAsks
    refine ⟨key, tail, waiting, holder, (state holder).held, more, ?_, held⟩
    rcases reachable.split holder with done | split
    · rw [done] at holderAsks
      cases holderAsks
    · rw [← split, holderAsks]
  induction chain generalizing wanted rest with
  | single wait =>
    obtain ⟨key, tail, waiting, precedes⟩ := link wait asks
    exact ⟨key, tail, waiting, TransGen.single precedes⟩
  | tail _ wait ih =>
    obtain ⟨middle, more, middleAsks, precedes⟩ := link wait asks
    obtain ⟨key, tail, waiting, before⟩ := ih middleAsks
    exact ⟨key, tail, waiting, before.tail precedes⟩

theorem not_deadlocked_of_acyclic (acyclic : ∀ key, ¬ TransGen (Precedes request) key key)
    (reachable : Reachable request state) : ¬ Deadlocked state := by
  rintro ⟨client, cycle⟩
  obtain ⟨other, ⟨wanted, rest, asks, -, -⟩, -⟩ := TransGen.head'_iff.1 cycle
  obtain ⟨key, tail, waiting, precedes⟩ := precedes_of_waits reachable cycle asks
  have same : key = wanted := by
    rw [asks] at waiting
    exact (List.cons.inj waiting).1.symm
  subst same
  exact acyclic key precedes

theorem reachable_firsts (first : ι → κ) (rest : ι → List κ) (clients : Finset ι)
    (requests : ∀ client ∈ clients, request client = first client :: rest client)
    (distinct : ∀ client ∈ clients, ∀ other ∈ clients, first client = first other → client = other) :
    Reachable request fun client =>
      if client ∈ clients then ⟨[first client], rest client⟩ else Client.fresh (request client) := by
  induction clients using Finset.induction_on with
  | empty => simpa [Reachable] using ReflTransGen.refl
  | insert actor others new ih =>
    have before := ih (fun client member => requests client (Finset.mem_insert_of_mem member))
      (fun client member other otherMember =>
        distinct client (Finset.mem_insert_of_mem member) other (Finset.mem_insert_of_mem otherMember))
    have actorRequest := requests actor (Finset.mem_insert_self actor others)
    refine before.tail ?_
    let taken : ι → Client κ := fun client =>
      if client ∈ others then ⟨[first client], rest client⟩ else Client.fresh (request client)
    have asks : (taken actor).todo = first actor :: rest actor := by
      simp [taken, new, Client.fresh, actorRequest]
    have free : Free taken actor (first actor) := by
      intro other different held
      by_cases member : other ∈ others
      · have key : first actor = first other := by simpa [taken, member] using held
        exact different (distinct other (Finset.mem_insert_of_mem member) actor
          (Finset.mem_insert_self actor others) key.symm)
      · simp [taken, member, Client.fresh] at held
    convert Step.acquire actor (first actor) (rest actor) asks free using 1
    funext client
    by_cases same : client = actor
    · subst same
      simp [taken, new, Client.fresh, Client.take, actorRequest]
    · rw [Function.update_of_ne same]
      simp [taken, Finset.mem_insert, same]

omit [DecidableEq ι] in
theorem deadlocked_of_serial [Finite ι] (group : Set ι) (inhabited : group.Nonempty)
    (waits : ∀ client ∈ group, ∃ other ∈ group, Waits state client other) : Deadlocked state := by
  by_contra free
  have irreflexive : Std.Irrefl (fun client other => TransGen (Waits state) other client) :=
    ⟨fun client cycle => free ⟨client, cycle⟩⟩
  have transitive : IsTrans ι (fun client other => TransGen (Waits state) other client) :=
    ⟨fun _ _ _ first second => second.trans first⟩
  have founded := Finite.wellFounded_of_trans_of_irrefl (fun client other => TransGen (Waits state) other client)
  obtain ⟨last, member, minimal⟩ := founded.has_min group inhabited
  obtain ⟨other, otherMember, wait⟩ := waits last member
  exact minimal other otherMember (TransGen.single wait)

omit [DecidableEq ι] in
theorem precedes_iff_pair (short : ∀ client, (request client).length ≤ 2) (first second : κ) :
    Precedes request first second ↔ ∃ client, request client = [first, second] := by
  constructor
  · rintro ⟨client, held, todo, split, member⟩
    refine ⟨client, ?_⟩
    have bound := short client
    rw [split] at bound ⊢
    match held, member with
    | [only], member =>
      have equal : first = only := by simpa using member
      have noMore : todo = [] := by
        apply List.eq_nil_of_length_eq_zero
        simp only [List.length_append, List.length_cons, List.length_nil] at bound
        omega
      rw [equal, noMore]
      rfl
    | head :: next :: more, _ =>
      simp only [List.length_append, List.length_cons] at bound
      omega
  · rintro ⟨client, pair⟩
    exact ⟨client, [first], [], pair, List.mem_singleton_self first⟩

/-- Requests of at most two keys, never the same key twice, that take keys in opposite orders around
a circle: every client of the circle can hold its first key and wait for the next client. -/
theorem deadlocked_of_cycle [Finite ι] (short : ∀ client, (request client).length ≤ 2)
    (nodup : ∀ client, (request client).Nodup) {start : κ} (cycle : TransGen (Precedes request) start start) :
    ∃ state, Reachable request state ∧ Deadlocked state := by
  classical
  -- the keys of the circle, and for each a client that takes it on the way to another one
  let onCycle : κ → Prop := fun key => TransGen (Precedes request) key start
  have next : ∀ key, onCycle key → ∃ client second, request client = [key, second] ∧ onCycle second := by
    intro key member
    obtain ⟨second, precedes, later⟩ := TransGen.head'_iff.1 member
    obtain ⟨client, pair⟩ := (precedes_iff_pair short key second).1 precedes
    refine ⟨client, second, pair, ?_⟩
    rcases (reflTransGen_iff_eq_or_transGen.1 later) with back | later
    · rw [← back]
      exact cycle
    · exact later
  have someKey : Nonempty κ := ⟨start⟩
  have someClient : Nonempty ι := ⟨(next start cycle).choose⟩
  choose! taker follower pair stays using next
  let group : Set ι := {client | ∃ key, onCycle key ∧ taker key = client}
  have finite : group.Finite := Set.toFinite group
  let clients := finite.toFinset
  have first_of : ∀ client ∈ clients, ∃ key, onCycle key ∧ taker key = client ∧
      request client = [key, follower key] := by
    intro client member
    obtain ⟨key, cyclic, rfl⟩ := finite.mem_toFinset.1 member
    exact ⟨key, cyclic, rfl, pair key cyclic⟩
  choose! key cyclic takes requests using first_of
  have distinct : ∀ client ∈ clients, ∀ other ∈ clients, key client = key other → client = other := by
    intro client member other otherMember same
    rw [← takes client member, ← takes other otherMember, same]
  refine ⟨_, reachable_firsts key (fun client => [follower (key client)]) clients requests distinct, ?_⟩
  refine deadlocked_of_serial group ⟨taker start, start, cycle, rfl⟩ ?_
  rintro client member
  have inClients : client ∈ clients := finite.mem_toFinset.2 member
  have wanted := stays (key client) (cyclic client inClients)
  have holder : taker (follower (key client)) ∈ clients := finite.mem_toFinset.2 ⟨_, wanted, rfl⟩
  have holds : key (taker (follower (key client))) = follower (key client) := by
    have first := requests _ holder
    rw [pair _ wanted] at first
    exact (List.cons.inj first).1.symm
  refine ⟨taker (follower (key client)), ⟨_, wanted, rfl⟩, follower (key client), [], ?_, ?_, ?_⟩
  · simp [inClients]
  · intro same
    rw [same] at holds
    have twice := nodup client
    rw [requests client inClients, ← holds] at twice
    simp at twice
  · simp [holder, holds]

theorem deadlock_free_iff_acyclic [Finite ι] (short : ∀ client, (request client).length ≤ 2)
    (nodup : ∀ client, (request client).Nodup) :
    (∀ state, Reachable request state → ¬ Deadlocked state) ↔
      ∀ key, ¬ TransGen (Precedes request) key key := by
  constructor
  · intro free key cycle
    obtain ⟨state, reachable, deadlocked⟩ := deadlocked_of_cycle short nodup cycle
    exact free state reachable deadlocked
  · intro acyclic state reachable
    exact not_deadlocked_of_acyclic acyclic reachable

end

end Callisto.Library.Locks
