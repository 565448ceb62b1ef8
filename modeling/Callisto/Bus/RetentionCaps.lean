import Callisto.Bus.PrunerRuns

/-! When the caps of a pass bind what the writer of the bus stores. -/

namespace Callisto.Bus.Pruner

open Callisto.Library

variable {cwd : List String} {today : ℤ} {disk : List StoredFile} {catalog : Catalog} {globalMaxBytes : Option ℕ+}

/-- The directories that the writer fills for the topics of kind `parquet`. -/
def Catalog.writeDirs (catalog : Catalog) (cwd : List String) : List (List String) :=
  (catalog.topics.filter fun topic => topic.storageKind = .parquet).filterMap (Topic.writeDir · cwd)

/-- A size cap deletes a file only while what it bounds exceeds it, and the oldest of a topic. -/
def Deletion.Due (deletion : Deletion) (catalog : Catalog) (globalMaxBytes : Option ℕ+) (cwd : List String) : Prop :=
  match deletion.cap with
  | .topic topic => topic ∈ catalog.topics ∧ ∃ dir maxBytes, topic.writeDir cwd = some dir ∧ topic.maxBytes = some maxBytes ∧
      maxBytes < topicDirSizeBytes dir deletion.before ∧ Oldest dir deletion.before deletion.file
  | .global => ∃ maxBytes, globalMaxBytes = some maxBytes ∧ maxBytes < bytesUnderAny (catalog.writeDirs cwd) deletion.before ∧
      ∃ topic ∈ catalog.topics, ∃ dir, topic.writeDir cwd = some dir ∧ Oldest dir deletion.before deletion.file

/-- The caps bind what the writer stores, and the recorded sizes are those of what it stores. -/
structure CapsBind (catalog : Catalog) (globalMaxBytes : Option ℕ+) (cwd : List String) (today : ℤ) (pass : Pass) (refreshed : Catalog) : Prop where
  age : ∀ topic ∈ catalog.topics, topic.storageKind = .parquet → ∀ dir, topic.writeDir cwd = some dir →
    ∀ days, topic.retentionDays = some days → 0 < days → ∀ file ∈ pass.disk, file.isOlder dir (today - days) = false
  size : ∀ topic ∈ catalog.topics, topic.storageKind = .parquet → ∀ dir, topic.writeDir cwd = some dir →
    ∀ maxBytes, topic.maxBytes = some maxBytes → topicDirSizeBytes dir pass.disk ≤ maxBytes
  total : ∀ maxBytes, globalMaxBytes = some maxBytes → bytesUnderAny (catalog.writeDirs cwd) pass.disk ≤ maxBytes
  due : ∀ deletion ∈ pass.deletions, deletion.Due catalog globalMaxBytes cwd
  recorded : ∀ topic ∈ refreshed.topics, topic.storageKind = .parquet ∨ topic.storageKind = .externalParquet →
    ∀ dir, topic.writeDir cwd = some dir → topic.bytesOnDisk = topicDirSizeBytes dir pass.disk

def PassBinds (settings : Option AppSettings) (catalog : Catalog) (cwd : List String) (today : ℤ) (disk : List StoredFile) : Prop :=
  ∀ pass refreshed, pruneOnce settings catalog cwd today disk = .pruned pass refreshed →
    CapsBind catalog (settings.bind AppSettings.globalMaxBytes) cwd today pass refreshed

/-- The directory that is pruned for a topic is the one that is written, or both hold nothing. What is imported is not written. -/
def PrunesWhatItWrites (cwd : List String) (disk : List StoredFile) (topic : Topic) : Prop :=
  topic.writeDir cwd = some (topic.dir cwd) ∨ topic.storageKind ≠ .parquet ∧ topic.writeDir cwd = none ∨
    ∀ file ∈ disk, file.under (topic.dir cwd) = false ∧ ∀ dir, topic.writeDir cwd = some dir → file.under dir = false

/-- Each topic prunes what it writes, a global cap counts no file twice, and the 1000 rounds of the global cap are enough. -/
structure CapsReach (catalog : Catalog) (globalMaxBytes : Option ℕ+) (cwd : List String) (today : ℤ) (disk : List StoredFile) : Prop where
  written : ∀ topic ∈ catalog.scanned, PrunesWhatItWrites cwd disk topic
  apart : globalMaxBytes ≠ none → Apart cwd catalog.parquetSpecs disk
  rounds : ∀ maxBytes, globalMaxBytes = some maxBytes → bytesUnderAny (catalog.parquetSpecs.map (Topic.dir · cwd))
    ((oldestOfLargest cwd catalog.parquetSpecs)^[1000] (catalog.leftByCaps cwd today disk)) ≤ maxBytes

/-- No file lies under directories of two topics, nor in a directory that is pruned but not written. -/
structure Separate (catalog : Catalog) (cwd : List String) (disk : List StoredFile) : Prop where
  own : ∀ topic ∈ catalog.scanned, topic.writeDir cwd = some (topic.dir cwd) ∨ topic.storageKind ≠ .parquet ∧ topic.writeDir cwd = none ∨
    ∀ file ∈ disk, file.under (topic.dir cwd) = false
  apart : ∀ topic ∈ catalog.scanned, ∀ other ∈ catalog.scanned, topic ≠ other → ∀ dir, topic.writeDir cwd = some dir →
    ∀ file ∈ disk, file.under dir = true → file.under (other.dir cwd) = false

/-! ## The topics of a pass -/

variable {dir : List String} {topic : Topic}

theorem writeDir_empty (empty : topic.storageUri = "") : topic.writeDir cwd = none := by
  unfold Topic.writeDir Topic.resolveWritableParquetSource Topic.resolveSources
  simp only [empty, if_true, List.findSome?_nil]

theorem mem_scanned (listed : topic ∈ catalog.topics)
    (kind : topic.storageKind = .parquet ∨ topic.storageKind = .externalParquet) (written : topic.writeDir cwd = some dir) :
    topic ∈ catalog.scanned := by
  apply List.mem_filter.mpr ⟨listed, _⟩
  have named : topic.storageUri ≠ "" := fun empty => by
    rw [writeDir_empty empty] at written
    contradiction
  simp only [kind, named, ne_eq, not_false_eq_true, and_self, decide_true]

theorem mem_topics_of_scanned (scanned : topic ∈ catalog.scanned) : topic ∈ catalog.topics := (List.mem_filter.mp scanned).1

theorem mem_parquetSpecs {topic : Topic} : topic ∈ catalog.parquetSpecs ↔ topic ∈ catalog.scanned ∧ topic.storageKind = .parquet := by
  unfold Catalog.parquetSpecs
  rw [List.mem_filter, decide_eq_true_iff]

theorem parquetSpecs_slugs (catalog : Catalog) : (catalog.parquetSpecs.map Topic.slug).Nodup :=
  catalog.slugs_nodup.sublist ((List.filter_sublist.trans List.filter_sublist).map Topic.slug)

theorem bytes_written {files : List StoredFile} (written : ∀ topic ∈ catalog.scanned, PrunesWhatItWrites cwd disk topic)
    (kept : files.Sublist disk) :
    bytesUnderAny (catalog.writeDirs cwd) files = bytesUnderAny (catalog.parquetSpecs.map (Topic.dir · cwd)) files := by
  unfold bytesUnderAny
  congr 1
  apply List.filter_congr
  intro file member
  have stored := kept.subset member
  rw [Bool.eq_iff_iff, List.any_eq_true, List.any_eq_true]
  constructor
  · intro ⟨dir, listed, inside⟩
    obtain ⟨topic, filtered, writes⟩ := List.mem_filterMap.mp listed
    have parquet := of_decide_eq_true (List.mem_filter.mp filtered).2
    have scanned := mem_scanned (List.mem_filter.mp filtered).1 (.inl parquet) writes
    match written topic scanned with
    | .inl same => exact ⟨dir, List.mem_map.mpr ⟨topic, mem_parquetSpecs.mpr ⟨scanned, parquet⟩, Option.some.inj (same.symm.trans writes)⟩, inside⟩
    | .inr (.inl other) => exact absurd parquet other.1
    | .inr (.inr away) =>
      rw [(away file stored).2 dir writes] at inside
      contradiction
  · intro ⟨dir, listed, inside⟩
    obtain ⟨topic, spec, rfl⟩ := List.mem_map.mp listed
    have scanned := mem_parquetSpecs.mp spec
    match written topic scanned.1 with
    | .inl same =>
      have filtered : topic ∈ catalog.topics.filter fun topic => topic.storageKind = .parquet :=
        List.mem_filter.mpr ⟨mem_topics_of_scanned scanned.1, decide_eq_true scanned.2⟩
      exact ⟨topic.dir cwd, List.mem_filterMap.mpr ⟨topic, filtered, same⟩, inside⟩
    | .inr (.inl other) => exact absurd scanned.2 other.1
    | .inr (.inr away) =>
      rw [(away file stored).1] at inside
      contradiction

/-! ## The three caps -/

/-- What the three caps do to the stored files, in terms of the directories that are pruned. -/
structure Pruned (catalog : Catalog) (globalMaxBytes : Option ℕ+) (cwd : List String) (today : ℤ) (disk : List StoredFile) (after : Pass) : Prop where
  kept : after.disk.Sublist (catalog.pruneTopics cwd today disk).disk
  outside : ∀ file ∈ disk, (∀ topic ∈ catalog.scanned, file.under (topic.dir cwd) = false) → file ∈ after.disk
  deletions : ∀ deletion ∈ after.deletions, deletion.before.Sublist disk ∧
    ((∃ topic ∈ catalog.scanned, ∃ maxBytes, topic.maxBytes = some maxBytes ∧ topic.storageKind = .parquet ∧
      Pass.TopicDeletion topic (topic.dir cwd) maxBytes deletion) ∨
    ∃ maxBytes, globalMaxBytes = some maxBytes ∧ GlobalDeletion cwd catalog.parquetSpecs maxBytes deletion)
  total : ∀ maxBytes, globalMaxBytes = some maxBytes →
    (bytesUnderAny (catalog.parquetSpecs.map (Topic.dir · cwd)) after.disk ≤ maxBytes ↔
      bytesUnderAny (catalog.parquetSpecs.map (Topic.dir · cwd))
        ((oldestOfLargest cwd catalog.parquetSpecs)^[1000] (catalog.leftByCaps cwd today disk)) ≤ maxBytes)

theorem pruneTopics_spec (catalog : Catalog) (cwd : List String) (today : ℤ) (disk : List StoredFile) :
    PrunedTopics cwd today catalog.scanned (Pass.start disk) (catalog.pruneTopics cwd today disk) :=
  foldl_pruneTopic catalog.scanned (Pass.start disk)

theorem prune_spec (catalog : Catalog) (globalMaxBytes : Option ℕ+) (cwd : List String) (today : ℤ) (disk : List StoredFile)
    (apart : globalMaxBytes ≠ none → Apart cwd catalog.parquetSpecs disk) :
    Pruned catalog globalMaxBytes cwd today disk (catalog.prune globalMaxBytes cwd today disk) := by
  have topics := pruneTopics_spec catalog cwd today disk
  have early (deletion : Deletion) (member : deletion ∈ (catalog.pruneTopics cwd today disk).deletions) :
      deletion.before.Sublist disk ∧ ∃ topic ∈ catalog.scanned, ∃ maxBytes, topic.maxBytes = some maxBytes ∧ topic.storageKind = .parquet ∧
        Pass.TopicDeletion topic (topic.dir cwd) maxBytes deletion := by
    cases topics.deletions deletion member with
    | inl older => exact nomatch older
    | inr deleted => exact deleted
  unfold Catalog.prune
  match globalMaxBytes, apart with
  | none, _ =>
    exact ⟨List.Sublist.refl _, topics.outside, fun deletion member => (early deletion member).imp_right .inl, fun _ capped => nomatch capped⟩
  | some cap, apart =>
    have pruned := pruneGlobalSize_spec (parquetSpecs_slugs catalog) cap (catalog.pruneTopics cwd today disk)
      ((apart (Option.some_ne_none cap)).mono topics.kept)
    refine ⟨pruned.kept, fun file member away => ?_, fun deletion member => ?_, fun maxBytes capped => ?_⟩
    · exact pruned.outside file (topics.outside file member away) fun topic spec => away topic (mem_parquetSpecs.mp spec).1
    · cases pruned.deletions deletion member with
      | inl older => exact (early deletion older).imp_right .inl
      | inr late => exact ⟨late.1.trans topics.kept, .inr ⟨cap, rfl, late.2⟩⟩
    · rw [← Option.some.inj capped, ← disk_pruneTopics]
      exact pruned.under_iff

/-! ## When the caps bind -/

theorem mem_refresh {files : List StoredFile} (listed : topic ∈ (catalog.refresh cwd files).topics)
    (kind : topic.storageKind = .parquet ∨ topic.storageKind = .externalParquet) (written : topic.writeDir cwd = some dir) :
    ∃ before ∈ catalog.scanned, before.writeDir cwd = topic.writeDir cwd ∧ before.dir cwd = topic.dir cwd ∧
      topic.bytesOnDisk = topicDirSizeBytes (before.dir cwd) files := by
  obtain ⟨before, beforeListed, same⟩ := List.mem_map.mp listed
  split at same
  · next scanned =>
    rw [← same]
    exact ⟨before, scanned, rfl, rfl, rfl⟩
  · next other =>
    rw [← same] at kind written
    exact absurd (mem_scanned beforeListed kind written) other

theorem refresh_of_scanned (files : List StoredFile) (scanned : topic ∈ catalog.scanned) :
    { topic with bytesOnDisk := topicDirSizeBytes (topic.dir cwd) files } ∈ (catalog.refresh cwd files).topics := by
  apply List.mem_map.mpr
  exact ⟨topic, mem_topics_of_scanned scanned, if_pos scanned⟩

/-- A topic that is bus-native, and what lies under its directories in a part of the disk: the one that is pruned is the one that is
written, or nothing lies in either. -/
theorem dir_of_written (prunes : PrunesWhatItWrites cwd disk topic) (writes : topic.writeDir cwd = some dir) :
    dir = topic.dir cwd ∨ ∀ file ∈ disk, file.under (topic.dir cwd) = false ∧ file.under dir = false := by
  match prunes with
  | .inl same => exact .inl (Option.some.inj (writes.symm.trans same))
  | .inr (.inl other) =>
    rw [other.2] at writes
    contradiction
  | .inr (.inr away) => exact .inr fun file member => ⟨(away file member).1, (away file member).2 dir writes⟩

theorem topicDirSizeBytes_zero {files : List StoredFile} (away : ∀ file ∈ files, file.under dir = false) :
    topicDirSizeBytes dir files = 0 := by
  unfold topicDirSizeBytes
  rw [List.filter_eq_nil_iff.mpr fun file member => by simp [away file member]]
  rfl

theorem binds_of_reach (reach : CapsReach catalog globalMaxBytes cwd today disk) :
    CapsBind catalog globalMaxBytes cwd today (catalog.prune globalMaxBytes cwd today disk)
      (catalog.refresh cwd (catalog.prune globalMaxBytes cwd today disk).disk) := by
  have topics := pruneTopics_spec catalog cwd today disk
  have pruned := prune_spec catalog globalMaxBytes cwd today disk reach.apart
  have kept := pruned.kept.trans topics.kept
  constructor
  · intro topic listed parquet dir writes days retained positive file member
    have scanned := mem_scanned listed (.inl parquet) writes
    cases dir_of_written (reach.written topic scanned) writes with
    | inl same =>
      rw [same]
      exact topics.young topic scanned days retained positive file (pruned.kept.subset member)
    | inr away => exact Pass.isOlder_of_away (away file (kept.subset member)).2
  · intro topic listed parquet dir writes maxBytes capped
    have scanned := mem_scanned listed (.inl parquet) writes
    cases dir_of_written (reach.written topic scanned) writes with
    | inl same =>
      rw [same]
      exact (topicDirSizeBytes_le pruned.kept).trans (topics.within topic scanned parquet maxBytes capped)
    | inr away =>
      rw [topicDirSizeBytes_zero fun file member => (away file (kept.subset member)).2]
      exact Nat.zero_le _
  · intro maxBytes capped
    rw [bytes_written reach.written kept]
    exact (pruned.total maxBytes capped).mpr (reach.rounds maxBytes capped)
  · intro deletion member
    have before := (pruned.deletions deletion member).1
    unfold Deletion.Due
    cases (pruned.deletions deletion member).2 with
    | inl deleted =>
      obtain ⟨topic, scanned, maxBytes, capped, parquet, deleted⟩ := deleted
      rw [deleted.cap]
      match reach.written topic scanned with
      | .inl same =>
        exact ⟨mem_topics_of_scanned scanned, topic.dir cwd, maxBytes, same, capped, deleted.exceeds, deleted.oldest⟩
      | .inr (.inl other) => exact absurd parquet other.1
      | .inr (.inr away) =>
        have inside := deleted.oldest.inside
        rw [(away deletion.file (before.subset deleted.oldest.member)).1] at inside
        contradiction
    | inr deleted =>
      obtain ⟨maxBytes, capped, deleted⟩ := deleted
      obtain ⟨topic, spec, oldest⟩ := deleted.oldest
      have scanned := mem_parquetSpecs.mp spec
      rw [deleted.cap]
      have exceeds := deleted.exceeds
      rw [← bytes_written reach.written before] at exceeds
      match reach.written topic scanned.1 with
      | .inl same => exact ⟨maxBytes, capped, exceeds, topic, mem_topics_of_scanned scanned.1, topic.dir cwd, same, oldest⟩
      | .inr (.inl other) => exact absurd scanned.2 other.1
      | .inr (.inr away) =>
        have inside := oldest.inside
        rw [(away deletion.file (before.subset oldest.member)).1] at inside
        contradiction
  · intro topic listed kind dir writes
    obtain ⟨original, scanned, sameWrites, sameDir, measured⟩ := mem_refresh listed kind writes
    rw [measured]
    cases dir_of_written (reach.written original scanned) (sameWrites.trans writes) with
    | inl same => rw [same]
    | inr away =>
      rw [topicDirSizeBytes_zero fun file member => (away file (kept.subset member)).1,
        topicDirSizeBytes_zero fun file member => (away file (kept.subset member)).2]

theorem reach_of_binds (separate : Separate catalog cwd disk)
    (binds : CapsBind catalog globalMaxBytes cwd today (catalog.prune globalMaxBytes cwd today disk)
      (catalog.refresh cwd (catalog.prune globalMaxBytes cwd today disk).disk)) :
    CapsReach catalog globalMaxBytes cwd today disk := by
  have apart : Apart cwd catalog.parquetSpecs disk := by
    intro topic spec other otherSpec different file member inside
    have scanned := mem_parquetSpecs.mp spec
    match separate.own topic scanned.1 with
    | .inl same => exact separate.apart topic scanned.1 other (mem_parquetSpecs.mp otherSpec).1 different _ same file member inside
    | .inr (.inl foreign) => exact absurd scanned.2 foreign.1
    | .inr (.inr away) =>
      rw [away file member] at inside
      contradiction
  have topics := pruneTopics_spec catalog cwd today disk
  have pruned := prune_spec catalog globalMaxBytes cwd today disk fun _ => apart
  have kept := pruned.kept.trans topics.kept
  have written : ∀ topic ∈ catalog.scanned, PrunesWhatItWrites cwd disk topic := by
    intro topic scanned
    match separate.own topic scanned with
    | .inl same => exact .inl same
    | .inr (.inl foreign) => exact .inr (.inl foreign)
    | .inr (.inr away) =>
      by_cases same : topic.writeDir cwd = some (topic.dir cwd)
      · exact .inl same
      refine .inr (.inr fun file member => ⟨away file member, fun dir writes => ?_⟩)
      -- Nothing is pruned that the topic wrote, and nothing is what is recorded for it.
      rw [Bool.eq_false_iff]
      intro inside
      have remains : file ∈ (catalog.prune globalMaxBytes cwd today disk).disk := by
        apply pruned.outside file member
        intro other otherScanned
        by_cases own : topic = other
        · exact own ▸ away file member
        · exact separate.apart topic scanned other otherScanned own dir writes file member inside
      have kind := (of_decide_eq_true (List.mem_filter.mp scanned).2).1
      have recorded := binds.recorded _ (refresh_of_scanned _ scanned) kind dir writes
      rw [topicDirSizeBytes_zero fun other otherMember => away other (kept.subset otherMember)] at recorded
      have none_ := bytes_eq_zero recorded.symm
      exact List.not_mem_nil (none_ ▸ List.mem_filter.mpr ⟨remains, inside⟩)
  refine ⟨written, fun _ => apart, fun maxBytes capped => ?_⟩
  rw [← pruned.total maxBytes capped, ← bytes_written written kept]
  exact binds.total maxBytes capped

/-- The caps of a pass bind what the writer stores if the pruner is switched off or they reach what is written, and only then where the
directories of the topics are separate. -/
theorem caps_bind_iff (settings : Option AppSettings) (catalog : Catalog) (cwd : List String) (today : ℤ) (disk : List StoredFile) :
    (settings.bind AppSettings.prunerEnabled = some false ∨ CapsReach catalog (settings.bind AppSettings.globalMaxBytes) cwd today disk →
      PassBinds settings catalog cwd today disk) ∧
    (Separate catalog cwd disk → PassBinds settings catalog cwd today disk →
      settings.bind AppSettings.prunerEnabled = some false ∨ CapsReach catalog (settings.bind AppSettings.globalMaxBytes) cwd today disk) := by
  unfold PassBinds pruneOnce
  by_cases off : settings.bind AppSettings.prunerEnabled = some false
  · simp only [off, if_true, true_or, forall_const, implies_true, reduceCtorEq, false_implies, and_self]
  · simp only [off, if_false, false_or, PruneOutcome.pruned.injEq, and_imp]
    constructor
    · intro reach pass refreshed passed refreshes
      rw [← refreshes, ← passed]
      exact binds_of_reach reach
    · intro separate binds
      exact reach_of_binds separate (binds _ _ rfl rfl)

/-! ## The topic of decisions -/

/-- `strategy.decision`, as `ensure_decision_topic_registered` registers it under `/data`. -/
def decisionTopic : Topic where
  slug := "strategy.decision"
  storageKind := .parquet
  storageUri := String.ofList (JsonText.dumps (.object [("sources", .array [.object [("kind", .string "parquet"),
    ("uri", .string "/data/recorded_event_bus/strategy.decision")]])]))
  retentionDays := some 30
  maxBytes := none
  bytesOnDisk := 0

def decisionFile : StoredFile :=
  ⟨["data", "recorded_event_bus", "strategy.decision", "market", "2026-01-02", "events__1767312000000_0a1b2c3d.parquet"], 4096, 1767312000, by decide⟩

theorem decisionTopic_writes : decisionTopic.writeDir ["app"] = some ["data", "recorded_event_bus", "strategy.decision"] := by
  decide +kernel

theorem decisionFile_older : decisionFile.isOlder ["data", "recorded_event_bus", "strategy.decision"] (739768 - 30) = true := by
  decide +kernel

/-- On 2026-06-01 the file of 2026-01-02 stays. -/
theorem decisionFile_stays : ¬ PassBinds none ⟨[decisionTopic], List.nodup_singleton _⟩ ["app"] 739768 [decisionFile] := by
  intro binds
  have bound := (binds _ _ rfl).age decisionTopic List.mem_cons_self rfl _ decisionTopic_writes 30 rfl (by decide)
  have stays : decisionFile ∈ (Catalog.prune ⟨[decisionTopic], List.nodup_singleton _⟩ none ["app"] 739768 [decisionFile]).disk := by
    decide +kernel
  have older := bound decisionFile stays
  rw [decisionFile_older] at older
  contradiction

end Callisto.Bus.Pruner
