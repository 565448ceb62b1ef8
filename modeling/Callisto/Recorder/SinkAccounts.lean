import Mathlib.Data.List.Sort
import Mathlib.Tactic.Linarith
import Callisto.Recorder.BookParquetSink

/-! What the sink keeps account of over a run of writes, flushes and failures. -/

namespace Callisto.Recorder

open Callisto.Library Callisto.Library.Runs

variable {γ : Type}

def weigh (weight : Row γ → ℤ) (rows : List (Row γ)) : ℤ := (rows.map weight).sum

@[simp] theorem weigh_nil (weight : Row γ → ℤ) : weigh weight [] = 0 := rfl

@[simp] theorem weigh_append (weight : Row γ → ℤ) (first second : List (Row γ)) :
    weigh weight (first ++ second) = weigh weight first + weigh weight second := by
  simp [weigh]

theorem weigh_length (rows : List (Row γ)) : weigh (fun _ => 1) rows = rows.length := by
  simp [weigh]

theorem weigh_count [DecidableEq γ] (row : Row γ) (rows : List (Row γ)) :
    weigh (fun other => if other = row then 1 else 0) rows = rows.count row := by
  induction rows with
  | nil => rfl
  | cons first rest ih =>
    unfold weigh at ih ⊢
    by_cases same : first = row
    · rw [List.map_cons, List.sum_cons, ih, same, List.count_cons_self, if_pos rfl]
      push_cast
      omega
    · rw [List.map_cons, List.sum_cons, ih, List.count_cons_of_ne same, if_neg same, zero_add]

theorem weigh_perm {first second : List (Row γ)} (perm : first.Perm second) (weight : Row γ → ℤ) :
    weigh weight first = weigh weight second := (perm.map weight).sum_eq

theorem weigh_flatten {κ : Type} [DecidableEq κ] (dict : Dict κ (List (Row γ))) (weight : Row γ → ℤ) :
    weigh weight dict.values.flatten = dict.sumBy (weigh weight) := by
  unfold weigh Dict.sumBy
  rw [List.map_flatten, List.sum_flatten, List.map_map]
  rfl

theorem elim_weigh (found : Option (List (Row γ))) (weight : Row γ → ℤ) :
    found.elim 0 (weigh weight) = weigh weight (found.getD []) := by
  cases found <;> rfl

namespace Sink

def Unused (files : Dict (BufferKey × ℕ) (List (Row γ))) (key : BufferKey) (seq : ℕ) : Prop :=
  ∀ number, files.get? (key, number) ≠ none → number < seq

theorem unused_nextPartSequence (files : Dict (BufferKey × ℕ) (List (Row γ))) (key : BufferKey) :
    Unused files key (nextPartSequence files key) := by
  intro number found
  have named : (key, number) ∈ files.entries.map Prod.fst := by
    by_contra absent
    exact found (Dict.find_eq_none_iff.2 absent)
  have listed : number + 1 ∈ (((files.entries.map Prod.fst).filter fun name => name.1 = key).map fun name => name.2 + 1) :=
    List.mem_map.2 ⟨(key, number), List.mem_filter.2 ⟨named, by simp⟩, rfl⟩
  have bounded : ∀ (numbers : List ℕ) (entry : ℕ), entry ∈ numbers → entry ≤ numbers.foldr max 0 := by
    intro numbers entry member
    induction numbers with
    | nil => exact absurd member List.not_mem_nil
    | cons first rest ih =>
      obtain rfl | later := List.mem_cons.1 member
      · exact le_max_left _ _
      · exact (ih later).trans (le_max_right _ _)
  exact bounded _ _ listed

structure SinkSound (sink : Sink γ) : Prop where
  buffered : sink.bufferedRows = sink.buf.sumBy (weigh fun _ => 1) + weigh (fun _ => 1) sink.inFlight
  once : ∀ weight, weigh weight sink.accepted =
    sink.buf.sumBy (weigh weight) + weigh weight sink.inFlight + sink.files.sumBy (weigh weight) + weigh weight sink.discarded
  dropped : sink.dropped = weigh (fun _ => 1) sink.discarded
  written : sink.written = sink.files.sumBy (weigh fun _ => 1)
  kept : sink.overwritten = false
  quiet : sink.raised = false
  orphans : sink.orphans = []
  fresh : ∀ part keys, sink.phase = .writing part keys → Unused sink.files part.key part.seq
  seqs : ∀ key seq, sink.partSeq.get? key = some seq → seq ≠ 0 → Unused sink.files key seq

theorem SinkSound.accounted [DecidableEq γ] {sink : Sink γ} (sound : SinkSound sink) : Accounted sink where
  buffered := by
    have buffered := sound.buffered
    rwa [← weigh_flatten, weigh_length, weigh_length] at buffered
  once row := by
    have once := sound.once fun other => if other = row then 1 else 0
    rw [← weigh_flatten, ← weigh_flatten, weigh_count, weigh_count, weigh_count, weigh_count, weigh_count] at once
    omega
  dropped := by
    have dropped := sound.dropped
    rwa [weigh_length] at dropped
  written := by
    have written := sound.written
    rwa [← weigh_flatten, weigh_length] at written
  kept := sound.kept
  quiet := sound.quiet

section
variable {sink : Sink γ}

theorem sumBy_set_weigh (key : BufferKey) (rows : List (Row γ)) (weight : Row γ → ℤ) (buf : Dict BufferKey (List (Row γ))) :
    (buf.set key rows).sumBy (weigh weight) = buf.sumBy (weigh weight) - weigh weight ((buf.get? key).getD []) + weigh weight rows := by
  rw [Dict.sumBy_set, elim_weigh]

theorem sumBy_erase_weigh (key : BufferKey) (weight : Row γ → ℤ) (buf : Dict BufferKey (List (Row γ))) :
    (buf.erase key).sumBy (weigh weight) = buf.sumBy (weigh weight) - weigh weight ((buf.get? key).getD []) := by
  rw [Dict.sumBy_erase, elim_weigh]

theorem SinkSound.buffered_nonneg (sound : SinkSound sink) : 0 ≤ sink.bufferedRows := by
  have buffered := sound.buffered
  rw [← weigh_flatten, weigh_length, weigh_length] at buffered
  omega

theorem SinkSound.add (sound : SinkSound sink) (kind : Kind) (row : Row γ) : SinkSound (sink.add kind row) where
  buffered := by
    have buffered := sound.buffered
    simp only [Sink.add, sumBy_set_weigh, weigh_append]
    have one : weigh (fun _ => 1) [row] = 1 := rfl
    have same : (sink.add kind row).inFlight = sink.inFlight := rfl
    unfold Sink.add at same
    rw [same]
    linarith
  once weight := by
    have once := sound.once weight
    have same : (sink.add kind row).inFlight = sink.inFlight := rfl
    unfold Sink.add at same ⊢
    simp only [sumBy_set_weigh, weigh_append, same]
    linarith
  dropped := sound.dropped
  written := sound.written
  kept := sound.kept
  quiet := sound.quiet
  orphans := sound.orphans
  fresh := sound.fresh
  seqs := sound.seqs

theorem SinkSound.dropOldest (sound : SinkSound sink) : SinkSound sink.dropOldest := by
  unfold Sink.dropOldest
  cases oldest : oldestKey (sink.buf.entries.map Prod.fst) with
  | none => exact sound
  | some key =>
    have length := weigh_length ((sink.buf.get? key).getD [])
    constructor
    · have buffered := sound.buffered
      simp only [sumBy_erase_weigh, inFlight] at buffered ⊢
      linarith
    · intro weight
      have once := sound.once weight
      simp only [sumBy_erase_weigh, weigh_append, inFlight] at once ⊢
      linarith
    · have dropped := sound.dropped
      simp only [weigh_append]
      linarith
    · exact sound.written
    · exact sound.kept
    · exact sound.quiet
    · exact sound.orphans
    · exact sound.fresh
    · exact sound.seqs

theorem SinkSound.write (sound : SinkSound sink) (rows : List (RawRow γ)) (kind : Kind) : SinkSound (sink.write rows kind) := by
  have added : ∀ (converted : List (Row γ)) (before : Sink γ), SinkSound before → SinkSound (converted.foldl (Sink.add kind) before) := by
    intro converted
    induction converted with
    | nil => exact fun _ held => held
    | cons row rest ih => exact fun before held => ih (before.add kind row) (held.add kind row)
  have held := added (rows.filterMap RawRow.convert) sink sound
  unfold Sink.write
  by_cases saturated : maxBufferedRows < ((rows.filterMap RawRow.convert).foldl (Sink.add kind) sink).bufferedRows
  · simp only [if_pos saturated]
    exact held.dropOldest
  · simp only [if_neg saturated]
    exact held

theorem SinkSound.forget (sound : SinkSound sink) {key : BufferKey} (drained : (sink.buf.get? key).getD [] = []) :
    SinkSound { sink with buf := sink.buf.erase key, partSeq := sink.partSeq.erase key } where
  buffered := by
    have buffered := sound.buffered
    simp only [sumBy_erase_weigh, drained, weigh_nil, sub_zero, inFlight] at buffered ⊢
    exact buffered
  once weight := by
    have once := sound.once weight
    simp only [sumBy_erase_weigh, drained, weigh_nil, sub_zero, inFlight] at once ⊢
    exact once
  dropped := sound.dropped
  written := sound.written
  kept := sound.kept
  quiet := sound.quiet
  orphans := sound.orphans
  fresh := sound.fresh
  seqs other seq known := by
    rw [Dict.get?_erase] at known
    by_cases same : key = other
    · rw [if_pos same] at known
      exact absurd known (by simp)
    · rw [if_neg same] at known
      exact sound.seqs other seq known

theorem SinkSound.handOver (sound : SinkSound { sink with phase := .idle }) {key : BufferKey} {rows : List (Row γ)} {seq : ℕ}
    (found : sink.buf.get? key = some rows) (unused : Unused sink.files key seq) (keys : List BufferKey) :
    SinkSound { sink with buf := sink.buf.set key [], phase := .writing ⟨key, seq, rows⟩ keys } where
  buffered := by
    have buffered := sound.buffered
    simp only [sumBy_set_weigh, found, Option.getD_some, inFlight, weigh_append, weigh_nil] at buffered ⊢
    linarith
  once weight := by
    have once := sound.once weight
    simp only [sumBy_set_weigh, found, Option.getD_some, inFlight, weigh_append, weigh_nil] at once ⊢
    linarith
  dropped := sound.dropped
  written := sound.written
  kept := sound.kept
  quiet := sound.quiet
  orphans := sound.orphans
  fresh part rest same := by
    obtain ⟨rfl, -⟩ := FlushPhase.writing.inj same
    exact unused
  seqs := sound.seqs

theorem SinkSound.drainNext (keys : List BufferKey) {sink : Sink γ} (sound : SinkSound { sink with phase := .idle }) :
    SinkSound (sink.drainNext keys) := by
  induction keys generalizing sink with
  | nil =>
    have nonneg : 0 ≤ sink.bufferedRows := sound.buffered_nonneg
    simp only [Sink.drainNext, max_eq_left nonneg]
    exact sound
  | cons key rest ih =>
    unfold Sink.drainNext
    cases found : sink.buf.get? key with
    | none =>
      have drained : (sink.buf.get? key).getD [] = [] := by rw [found, Option.getD_none]
      exact ih (sound.forget drained)
    | some rows =>
      cases rows with
      | nil =>
        have drained : (sink.buf.get? key).getD [] = [] := by rw [found, Option.getD_some]
        exact ih (sound.forget drained)
      | cons row rows =>
        have unused : Unused sink.files key
            (if (sink.partSeq.get? key).getD 0 = 0 then nextPartSequence sink.files key else (sink.partSeq.get? key).getD 0) := by
          by_cases unknown : (sink.partSeq.get? key).getD 0 = 0
          · rw [if_pos unknown]
            exact unused_nextPartSequence sink.files key
          · rw [if_neg unknown]
            cases known : sink.partSeq.get? key with
            | none =>
              rw [known] at unknown
              exact absurd rfl unknown
            | some seq =>
              rw [known] at unknown
              exact sound.seqs key seq known unknown
        exact sound.handOver found unused rest

theorem SinkSound.guarded (sound : SinkSound sink) (waiting : sink.phase = .guarding) (blocked : Bool) :
    SinkSound (sink.guarded blocked) := by
  have nothing : sink.inFlight = [] := by simp [inFlight, waiting, sound.orphans]
  cases blocked with
  | false =>
    apply SinkSound.drainNext
    have still : ({ sink with phase := .idle } : Sink γ).inFlight = [] := by simp [inFlight, sound.orphans]
    constructor
    · have buffered := sound.buffered
      rw [nothing] at buffered
      rw [still]
      exact buffered
    · intro weight
      have once := sound.once weight
      rw [nothing] at once
      rw [still]
      exact once
    · exact sound.dropped
    · exact sound.written
    · exact sound.kept
    · exact sound.quiet
    · exact sound.orphans
    · intro part keys same
      exact absurd same (by simp)
    · exact sound.seqs
  | true =>
    have still : (sink.guarded true).inFlight = [] := by simp [Sink.guarded, inFlight, sound.orphans]
    have buffered := sound.buffered
    rw [nothing, weigh_nil, add_zero] at buffered
    constructor
    · rw [still]
      rfl
    · intro weight
      have once := sound.once weight
      rw [nothing] at once
      rw [still]
      simp only [Sink.guarded, if_true, weigh_append, weigh_flatten, Dict.sumBy_empty, weigh_nil] at once ⊢
      linarith
    · have dropped := sound.dropped
      simp only [Sink.guarded, if_true, weigh_append, weigh_flatten]
      linarith
    · exact sound.written
    · exact sound.kept
    · exact sound.quiet
    · exact sound.orphans
    · intro part keys same
      exact absurd same (by simp [Sink.guarded])
    · intro key seq known
      exact absurd known (by simp [Sink.guarded])

variable {part : PartWrite γ} {keys : List BufferKey}

theorem inFlight_writing (sound : SinkSound sink) (writing : sink.phase = .writing part keys) : sink.inFlight = part.drained := by
  simp [inFlight, writing, sound.orphans]

theorem SinkSound.fileWritten (sound : SinkSound sink) (writing : sink.phase = .writing part keys) :
    SinkSound { sink.putFile part with
      partSeq := sink.partSeq.set part.key (part.seq + 1)
      written := sink.written + part.drained.length
      bufferedRows := sink.bufferedRows - part.drained.length
      phase := .idle } := by
  have unused := sound.fresh part keys writing
  have absent : sink.files.get? (part.key, part.seq) = none := by
    by_contra found
    exact absurd (unused part.seq found) (lt_irrefl _)
  have sorted : ∀ weight, weigh weight (part.drained.mergeSort rowLe) = weigh weight part.drained :=
    fun weight => weigh_perm (List.mergeSort_perm _ _) weight
  have filed : ∀ weight, (sink.files.set (part.key, part.seq) (part.drained.mergeSort rowLe)).sumBy (weigh weight) =
      sink.files.sumBy (weigh weight) + weigh weight part.drained := by
    intro weight
    rw [Dict.sumBy_set, absent, sorted]
    simp
  have length := weigh_length part.drained
  constructor
  · have buffered := sound.buffered
    rw [inFlight_writing sound writing] at buffered
    simp only [putFile, inFlight, sound.orphans, List.map_nil, List.flatten_nil, List.append_nil, weigh_nil]
    linarith
  · intro weight
    have once := sound.once weight
    rw [inFlight_writing sound writing] at once
    simp only [putFile, inFlight, sound.orphans, List.map_nil, List.flatten_nil, List.append_nil, weigh_nil, filed]
    linarith
  · exact sound.dropped
  · have written := sound.written
    simp only [putFile, filed]
    linarith
  · simp [putFile, sound.kept, absent]
  · exact sound.quiet
  · exact sound.orphans
  · intro other rest same
    exact absurd same (by simp)
  · intro key seq known nonzero number found
    simp only [putFile, Dict.get?_set] at known found
    by_cases same : part.key = key
    · rw [if_pos same, Option.some_inj] at known
      subst same
      by_cases here : (part.key, part.seq) = (part.key, number)
      · have numbers : part.seq = number := (Prod.mk.inj here).2
        omega
      · rw [if_neg here] at found
        have older := unused number found
        omega
    · have other : (part.key, part.seq) ≠ (key, number) := fun equal => same (Prod.mk.inj equal).1
      rw [if_neg same] at known
      rw [if_neg other] at found
      exact sound.seqs key seq known nonzero number found

theorem SinkSound.partWritten (sound : SinkSound sink) (writing : sink.phase = .writing part keys) (currentBucket : ℤ) :
    SinkSound (sink.partWritten part keys currentBucket) := by
  have filed := sound.fileWritten writing
  unfold Sink.partWritten
  by_cases closed : part.key.bucket < currentBucket ∧ (sink.buf.get? part.key).getD [] = []
  · have same : part.key.bucket < currentBucket ∧ ((sink.putFile part).buf.get? part.key).getD [] = [] := closed
    simp only [if_pos same]
    exact SinkSound.drainNext keys (filed.forget closed.2)
  · have same : ¬ (part.key.bucket < currentBucket ∧ ((sink.putFile part).buf.get? part.key).getD [] = []) := closed
    simp only [if_neg same]
    exact SinkSound.drainNext keys filed

theorem SinkSound.partFailed (sound : SinkSound sink) (writing : sink.phase = .writing part keys)
    (there : sink.buf.get? part.key ≠ none) : SinkSound (sink.partFailed part keys) := by
  unfold Sink.partFailed
  cases found : sink.buf.get? part.key with
  | none => exact absurd found there
  | some later =>
    apply SinkSound.drainNext
    constructor
    · have buffered := sound.buffered
      rw [inFlight_writing sound writing] at buffered
      simp only [inFlight, sound.orphans, List.map_nil, List.flatten_nil, List.append_nil, weigh_nil, sumBy_set_weigh, found,
        Option.getD_some, weigh_append]
      linarith
    · intro weight
      have once := sound.once weight
      rw [inFlight_writing sound writing] at once
      simp only [inFlight, sound.orphans, List.map_nil, List.flatten_nil, List.append_nil, weigh_nil, sumBy_set_weigh, found,
        Option.getD_some, weigh_append]
      linarith
    · exact sound.dropped
    · exact sound.written
    · exact sound.kept
    · exact sound.quiet
    · exact sound.orphans
    · intro other rest same
      exact absurd same (by simp)
    · exact sound.seqs

theorem SinkSound.rephase (sound : SinkSound sink) (phase : FlushPhase γ) (before : ∀ part keys, sink.phase ≠ .writing part keys)
    (after : ∀ part keys, phase ≠ .writing part keys) : SinkSound { sink with phase } := by
  have nothing : sink.inFlight = [] := by
    unfold inFlight
    split
    · next part keys writing => exact absurd writing (before part keys)
    · simp [sound.orphans]
  have still : ({ sink with phase } : Sink γ).inFlight = [] := by
    unfold inFlight
    split
    · next part keys writing => exact absurd writing (after part keys)
    · simp [sound.orphans]
  constructor
  · have buffered := sound.buffered
    rw [nothing] at buffered
    rw [still]
    exact buffered
  · intro weight
    have once := sound.once weight
    rw [nothing] at once
    rw [still]
    exact once
  · exact sound.dropped
  · exact sound.written
  · exact sound.kept
  · exact sound.quiet
  · exact sound.orphans
  · intro part keys writing
    exact absurd writing (after part keys)
  · exact sound.seqs

end

/-- The loop is not cancelled while a part write is in flight, and no part write fails whose key was dropped meanwhile. -/
def Careful (sink : Sink γ) : Event γ → Prop
  | .cancel => ∀ part keys, sink.phase ≠ .writing part keys
  | .partFails => ∀ part keys, sink.phase = .writing part keys → sink.buf.get? part.key ≠ none
  | _ => True

theorem SinkSound.step {sink : Sink γ} (sound : SinkSound sink) (event : Event γ) (careful : Careful sink event) :
    SinkSound (sink.step event) := by
  cases event with
  | write rows kind => exact sound.write rows kind
  | flush =>
    cases phase : sink.phase with
    | idle =>
      simp only [Sink.step, phase]
      exact sound.rephase .guarding (by simp [phase]) (by simp)
    | guarding => simpa only [Sink.step, phase] using sound
    | pruning => simpa only [Sink.step, phase] using sound
    | writing part keys => simpa only [Sink.step, phase] using sound
  | guardAnswers blocked =>
    cases phase : sink.phase with
    | guarding =>
      simp only [Sink.step, phase]
      exact sound.guarded phase blocked
    | idle => simpa only [Sink.step, phase] using sound
    | pruning => simpa only [Sink.step, phase] using sound
    | writing part keys => simpa only [Sink.step, phase] using sound
  | pruned =>
    cases phase : sink.phase with
    | pruning =>
      simp only [Sink.step, phase]
      exact sound.rephase .idle (by simp [phase]) (by simp)
    | idle => simpa only [Sink.step, phase] using sound
    | guarding => simpa only [Sink.step, phase] using sound
    | writing part keys => simpa only [Sink.step, phase] using sound
  | partDone currentBucket =>
    cases phase : sink.phase with
    | writing part keys =>
      simp only [Sink.step, phase]
      exact sound.partWritten phase currentBucket
    | idle => simpa only [Sink.step, phase] using sound
    | guarding => simpa only [Sink.step, phase] using sound
    | pruning => simpa only [Sink.step, phase] using sound
  | partFails =>
    cases phase : sink.phase with
    | writing part keys =>
      simp only [Sink.step, phase]
      exact sound.partFailed phase (careful part keys phase)
    | idle => simpa only [Sink.step, phase] using sound
    | guarding => simpa only [Sink.step, phase] using sound
    | pruning => simpa only [Sink.step, phase] using sound
  | cancel =>
    have idle : sink.cancel = { sink with phase := .idle } := by
      unfold Sink.cancel
      split
      · next part keys writing => exact absurd writing (careful part keys)
      · rfl
    rw [Sink.step, idle]
    exact sound.rephase .idle careful (by simp)
  | orphanDone index => simpa only [Sink.step, sound.orphans, List.getElem?_nil] using sound
  | orphanFails index =>
    have none : sink.orphans.eraseIdx index = sink.orphans := by rw [sound.orphans, List.eraseIdx_nil]
    simp only [Sink.step, none]
    exact sound

theorem SinkSound.fresh_sink : SinkSound ({} : Sink γ) where
  buffered := rfl
  once _ := rfl
  dropped := rfl
  written := rfl
  kept := rfl
  quiet := rfl
  orphans := rfl
  fresh _ _ same := absurd same (by simp)
  seqs _ _ known := absurd known (by simp)

end Sink

/-- In a run that cancels no part write and fails none whose key was dropped, every state is accounted for. -/
theorem sink_accounted [DecidableEq γ] {events : List (Sink.Event γ)} (careful : Meets Sink.step Sink.Careful {} events) :
    Always Sink.step Sink.Accounted {} events := by
  have sound : Always Sink.step Sink.SinkSound {} events :=
    always_of_meets (fun _ event held ok => Sink.SinkSound.step held event ok) Sink.SinkSound.fresh_sink careful
  intro first isPrefix
  exact (sound first isPrefix).accounted

/-- Three rows of one window, the second in flight when the loop is stopped: the last flush writes over its part. -/
def stoppedRun : List (Sink.Event ℕ) := [
  .write [⟨"token", some 0, 1⟩] .snapshots, .flush, .guardAnswers false, .partDone 0,
  .write [⟨"token", some 0, 2⟩] .snapshots, .flush, .guardAnswers false,
  .write [⟨"token", some 0, 3⟩] .snapshots, .cancel, .orphanDone 0,
  .flush, .guardAnswers false, .partDone 0]

theorem sink_not_accounted : ¬ ∀ events : List (Sink.Event ℕ), Always Sink.step Sink.Accounted {} events := by
  intro all
  have accounted := all stoppedRun stoppedRun (List.prefix_refl _)
  have replaced : (run Sink.step {} stoppedRun).overwritten = true := by decide +kernel
  have kept := accounted.kept
  rw [replaced] at kept
  exact absurd kept (by decide)

/-- A part write that fails once is tried again with the rows that came meanwhile behind it. -/
theorem sink_accounted_retry : Always Sink.step Sink.Accounted {} [
    .write [⟨"token", some 0, 1⟩] .snapshots, .flush, .guardAnswers false, .write [⟨"token", some 0, 2⟩] .snapshots, .partFails,
    .flush, .guardAnswers false, .partDone 900, .cancel] := by
  apply sink_accounted
  simp only [meets_cons, meets_nil, and_true, true_and, Sink.Careful]
  constructor
  · intro part keys writing
    have there : (run Sink.step ({} : Sink ℕ) [.write [⟨"token", some 0, 1⟩] .snapshots, .flush, .guardAnswers false,
        .write [⟨"token", some 0, 2⟩] .snapshots]).phase = .writing ⟨⟨.snapshots, 0⟩, 0, [⟨"token", 0, 1⟩]⟩ [] := rfl
    simp only [run_cons, run_nil] at there
    rw [there] at writing
    cases writing
    decide +kernel
  · intro part keys writing
    have idle : (run Sink.step ({} : Sink ℕ) [.write [⟨"token", some 0, 1⟩] .snapshots, .flush, .guardAnswers false,
        .write [⟨"token", some 0, 2⟩] .snapshots, .partFails, .flush, .guardAnswers false, .partDone 900]).phase = .idle := rfl
    simp only [run_cons, run_nil] at idle
    rw [idle] at writing
    cases writing

end Callisto.Recorder
