import Callisto.Bus.PrunerSteps
import Mathlib.Logic.Function.Iterate

/-! The caps of all topics in turn, and the rounds of the global cap as repeated removals of the oldest file of the largest directory. -/

namespace Callisto.Bus.Pruner

variable {cwd : List String} {today : ℤ} {disk : List StoredFile} {specs : List Topic}

/-! ## The caps of the topics -/

structure PrunedTopics (cwd : List String) (today : ℤ) (topics : List Topic) (before after : Pass) : Prop where
  kept : after.disk.Sublist before.disk
  outside : ∀ file ∈ before.disk, (∀ topic ∈ topics, file.under (topic.dir cwd) = false) → file ∈ after.disk
  deletions : ∀ deletion ∈ after.deletions, deletion ∈ before.deletions ∨ deletion.before.Sublist before.disk ∧
    ∃ topic ∈ topics, ∃ maxBytes, topic.maxBytes = some maxBytes ∧ topic.storageKind = .parquet ∧
      Pass.TopicDeletion topic (topic.dir cwd) maxBytes deletion
  young : ∀ topic ∈ topics, ∀ days, topic.retentionDays = some days → 0 < days →
    ∀ file ∈ after.disk, file.isOlder (topic.dir cwd) (today - days) = false
  within : ∀ topic ∈ topics, topic.storageKind = .parquet → ∀ maxBytes, topic.maxBytes = some maxBytes →
    topicDirSizeBytes (topic.dir cwd) after.disk ≤ maxBytes

theorem PrunedTopics.nil (pass : Pass) : PrunedTopics cwd today [] pass pass where
  kept := List.Sublist.refl _
  outside _ member _ := member
  deletions _ member := .inl member
  young _ member := nomatch member
  within _ member := nomatch member

theorem PrunedTopics.append {topics others : List Topic} {first second third : Pass} (before : PrunedTopics cwd today topics first second)
    (after : PrunedTopics cwd today others second third) : PrunedTopics cwd today (topics ++ others) first third where
  kept := after.kept.trans before.kept
  outside file member away := by
    have middle := before.outside file member fun topic listed => away topic (List.mem_append_left _ listed)
    exact after.outside file middle fun topic listed => away topic (List.mem_append_right _ listed)
  deletions deletion member := by
    match after.deletions deletion member with
    | .inr ⟨early, topic, listed, deleted⟩ => exact .inr ⟨early.trans before.kept, topic, List.mem_append_right _ listed, deleted⟩
    | .inl earlier =>
      match before.deletions deletion earlier with
      | .inl older => exact .inl older
      | .inr ⟨early, topic, listed, deleted⟩ => exact .inr ⟨early, topic, List.mem_append_left _ listed, deleted⟩
  young topic listed days retained positive file member := by
    cases List.mem_append.mp listed with
    | inl early => exact before.young topic early days retained positive file (after.kept.subset member)
    | inr late => exact after.young topic late days retained positive file member
  within topic listed parquet maxBytes capped := by
    cases List.mem_append.mp listed with
    | inl early => exact (topicDirSizeBytes_le after.kept).trans (before.within topic early parquet maxBytes capped)
    | inr late => exact after.within topic late parquet maxBytes capped

def aged (cwd : List String) (today : ℤ) (pass : Pass) (topic : Topic) : Pass :=
  match topic.retentionDays with
  | some days => if 0 < days then pass.pruneTopicAge (topic.dir cwd) (today - days) else pass
  | none => pass

def Topic.young (topic : Topic) (cwd : List String) (today : ℤ) (disk : List StoredFile) : List StoredFile :=
  disk.filter fun file => !topic.retentionDays.any fun days => 0 < days ∧ file.isOlder (topic.dir cwd) (today - days)

theorem disk_aged (pass : Pass) (topic : Topic) : (aged cwd today pass topic).disk = topic.young cwd today pass.disk := by
  unfold aged Topic.young
  cases topic.retentionDays with
  | none => simp
  | some days => by_cases positive : 0 < days <;> simp [positive, Pass.pruneTopicAge]

theorem aged_kept (pass : Pass) (topic : Topic) : (aged cwd today pass topic).disk.Sublist pass.disk :=
  disk_aged pass topic ▸ List.filter_sublist

theorem aged_outside {pass : Pass} {topic : Topic} {file : StoredFile} (member : file ∈ pass.disk)
    (away : file.under (topic.dir cwd) = false) : file ∈ (aged cwd today pass topic).disk := by
  rw [disk_aged]
  apply List.mem_filter.mpr ⟨member, _⟩
  simp [Pass.isOlder_of_away away]

theorem aged_deletions (pass : Pass) (topic : Topic) : (aged cwd today pass topic).deletions = pass.deletions := by
  unfold aged
  split
  · split <;> rfl
  · rfl

theorem aged_young {pass : Pass} {topic : Topic} {days : ℤ} (retained : topic.retentionDays = some days) (positive : 0 < days) :
    ∀ file ∈ (aged cwd today pass topic).disk, file.isOlder (topic.dir cwd) (today - days) = false := by
  rw [disk_aged]
  intro file member
  have young := (List.mem_filter.mp member).2
  simpa [retained, positive] using young

theorem pruneTopic_aged (pass : Pass) (topic : Topic) : Pass.pruneTopic cwd today pass topic = match topic.maxBytes with
    | some maxBytes =>
      if topic.storageKind = .parquet then (aged cwd today pass topic).pruneTopicSize topic (topic.dir cwd) maxBytes
      else aged cwd today pass topic
    | none => aged cwd today pass topic := rfl

/-- The files that the caps of a topic leave: the young ones, and of these the newest that fit. -/
def Topic.leaves (topic : Topic) (cwd : List String) (today : ℤ) (disk : List StoredFile) : List StoredFile :=
  let young := topic.young cwd today disk
  match topic.maxBytes with
  | some maxBytes => if topic.storageKind = .parquet then young.diff (Pass.exceeding maxBytes (listPartitionFiles (topic.dir cwd) young)) else young
  | none => young

theorem disk_pruneTopic (pass : Pass) (topic : Topic) : (Pass.pruneTopic cwd today pass topic).disk = topic.leaves cwd today pass.disk := by
  rw [pruneTopic_aged]
  unfold Topic.leaves
  cases topic.maxBytes with
  | none => exact disk_aged pass topic
  | some maxBytes =>
    dsimp only
    rw [← disk_aged]
    split
    · exact Pass.disk_pruneFiles _ _ _ _
    · rfl

theorem pruneTopic_spec (pass : Pass) (topic : Topic) : PrunedTopics cwd today [topic] pass (Pass.pruneTopic cwd today pass topic) := by
  have unsized (uncapped : topic.storageKind = .parquet → topic.maxBytes = none) :
      PrunedTopics cwd today [topic] pass (aged cwd today pass topic) := by
    refine ⟨aged_kept pass topic, fun file member away => aged_outside member (away topic List.mem_cons_self), ?_, ?_, ?_⟩
    · intro deletion member
      rw [aged_deletions] at member
      exact .inl member
    · intro other listed days retained positive
      rw [List.mem_singleton.mp listed] at retained ⊢
      exact aged_young retained positive
    · intro other listed parquet maxBytes capped
      rw [List.mem_singleton.mp listed] at parquet capped
      rw [uncapped parquet] at capped
      contradiction
  rw [pruneTopic_aged]
  split
  · next maxBytes capped =>
    split
    · next parquet =>
      have pruned := Pass.pruneTopicSize_spec (aged cwd today pass topic) topic (topic.dir cwd) maxBytes
      refine ⟨pruned.1.kept.trans (aged_kept pass topic), ?_, ?_, ?_, ?_⟩
      · intro file member away
        have inside := away topic List.mem_cons_self
        exact pruned.1.outside file (aged_outside member inside) inside
      · intro deletion member
        cases pruned.1.deletions deletion member with
        | inl earlier =>
          rw [aged_deletions] at earlier
          exact .inl earlier
        | inr late =>
          exact .inr ⟨late.1.trans (aged_kept pass topic), topic, List.mem_cons_self, maxBytes, capped, parquet, late.2⟩
      · intro other listed days retained positive file member
        rw [List.mem_singleton.mp listed] at retained ⊢
        exact aged_young retained positive file (pruned.1.kept.subset member)
      · intro other listed _ otherBytes otherCapped
        rw [List.mem_singleton.mp listed] at otherCapped ⊢
        rw [capped] at otherCapped
        exact Option.some.inj otherCapped ▸ pruned.2
    · next other => exact unsized fun parquet => absurd parquet other
  · next uncapped => exact unsized fun _ => uncapped

theorem foldl_pruneTopic (topics : List Topic) (pass : Pass) :
    PrunedTopics cwd today topics pass (topics.foldl (Pass.pruneTopic cwd today) pass) := by
  induction topics generalizing pass with
  | nil => exact PrunedTopics.nil pass
  | cons topic topics ih => exact (pruneTopic_spec pass topic).append (ih (Pass.pruneTopic cwd today pass topic))

def Catalog.leftByCaps (catalog : Catalog) (cwd : List String) (today : ℤ) (disk : List StoredFile) : List StoredFile :=
  catalog.scanned.foldl (fun left topic => topic.leaves cwd today left) disk

theorem disk_pruneTopics (catalog : Catalog) : (catalog.pruneTopics cwd today disk).disk = catalog.leftByCaps cwd today disk :=
  (List.foldl_hom Pass.disk fun pass topic => (disk_pruneTopic pass topic).symm).symm

/-! ## The rounds of the global cap -/

def bytesUnderAny (dirs : List (List String)) (disk : List StoredFile) : ℕ := bytes (disk.filter fun file => dirs.any file.under)

def Apart (cwd : List String) (topics : List Topic) (disk : List StoredFile) : Prop :=
  ∀ topic ∈ topics, ∀ other ∈ topics, topic ≠ other → ∀ file ∈ disk, file.under (topic.dir cwd) = true → file.under (other.dir cwd) = false

theorem Apart.mono {topics : List Topic} {disk kept : List StoredFile} (apart : Apart cwd topics disk) (sub : kept.Sublist disk) :
    Apart cwd topics kept :=
  fun topic listed other otherListed different file member => apart topic listed other otherListed different file (sub.subset member)

/-- The disk without the oldest file of the directory that holds the most. -/
def oldestOfLargest (cwd : List String) (specs : List Topic) (disk : List StoredFile) : List StoredFile :=
  match Pass.largestBy Prod.snd (Pass.measure cwd specs disk) with
  | none => disk
  | some largest =>
    match listPartitionFiles (largest.1.dir cwd) disk with
    | [] => disk
    | file :: _ => disk.erase file

theorem oldestOfLargest_sublist (specs : List Topic) (disk : List StoredFile) : (oldestOfLargest cwd specs disk).Sublist disk := by
  unfold oldestOfLargest
  split
  · exact List.Sublist.refl _
  · split
    · exact List.Sublist.refl _
    · exact List.erase_sublist

theorem oldestOfLargest_iterate (specs : List Topic) (disk : List StoredFile) (rounds more : ℕ) :
    ((oldestOfLargest cwd specs)^[rounds + more] disk).Sublist ((oldestOfLargest cwd specs)^[rounds] disk) := by
  induction more with
  | zero => exact List.Sublist.refl _
  | succ more ih =>
    rw [← Nat.add_assoc, Function.iterate_succ_apply']
    exact (oldestOfLargest_sublist specs _).trans ih

theorem bytes_filter_or {first second : StoredFile → Bool} (apart : ∀ file ∈ disk, first file = true → second file = false) :
    bytes (disk.filter fun file => first file || second file) = bytes (disk.filter first) + bytes (disk.filter second) := by
  induction disk with
  | nil => rfl
  | cons file disk ih =>
    have rest := ih fun other member => apart other (List.mem_cons_of_mem file member)
    have head := apart file List.mem_cons_self
    cases one : first file
    · cases two : second file
      · simpa [List.filter_cons, one, two] using rest
      · simp only [List.filter_cons, one, two, Bool.or_true, if_true, Bool.false_eq_true, if_false, bytes_cons, rest]
        omega
    · have two := head one
      simp only [List.filter_cons, one, two, Bool.or_false, if_true, Bool.false_eq_true, if_false, bytes_cons, rest]
      omega

theorem sum_measure (nodup : specs.Nodup) (apart : Apart cwd specs disk) :
    ((Pass.measure cwd specs disk).map Prod.snd).sum = (bytesUnderAny (specs.map (Topic.dir · cwd)) disk : ℤ) := by
  induction specs with
  | nil => simp [Pass.measure, bytesUnderAny, bytes]
  | cons topic specs ih =>
    have fresh := List.nodup_cons.mp nodup
    have rest := ih fresh.2 fun first listed second secondListed =>
      apart first (List.mem_cons_of_mem topic listed) second (List.mem_cons_of_mem topic secondListed)
    have split_ : bytesUnderAny ((topic :: specs).map (Topic.dir · cwd)) disk =
        topicDirSizeBytes (topic.dir cwd) disk + bytesUnderAny (specs.map (Topic.dir · cwd)) disk := by
      apply bytes_filter_or
      intro file member inside
      simp only [List.any_map, List.any_eq_false, Function.comp_apply, Bool.not_eq_true]
      intro other listed
      have different : topic ≠ other := fun same => fresh.1 (same ▸ listed)
      exact apart topic List.mem_cons_self other (List.mem_cons_of_mem topic listed) different file member inside
    rw [split_, Int.natCast_add, ← rest]
    rfl

theorem mem_measure {entry : Topic × ℤ} (member : entry ∈ Pass.measure cwd specs disk) :
    entry.1 ∈ specs ∧ entry.2 = (topicDirSizeBytes (entry.1.dir cwd) disk : ℤ) := by
  obtain ⟨topic, listed, rfl⟩ := List.mem_map.mp member
  exact ⟨listed, rfl⟩

theorem exists_oldest (nodup : specs.Nodup) (apart : Apart cwd specs disk)
    (some_ : 0 < bytesUnderAny (specs.map (Topic.dir · cwd)) disk) :
    ∃ largest file files, Pass.largestBy Prod.snd (Pass.measure cwd specs disk) = some largest ∧ ¬ largest.2 ≤ 0 ∧
      listPartitionFiles (largest.1.dir cwd) disk = file :: files := by
  have total := sum_measure nodup apart
  cases found : Pass.largestBy Prod.snd (Pass.measure cwd specs disk) with
  | none =>
    rw [List.argmax_eq_none.mp found] at total
    simp only [List.map_nil, List.sum_nil] at total
    omega
  | some largest =>
    have measured := mem_measure (List.argmax_mem found)
    have positive : ¬ largest.2 ≤ 0 := by
      intro empty
      have all : ∀ size ∈ (Pass.measure cwd specs disk).map Prod.snd, size ≤ 0 := by
        intro size member
        obtain ⟨entry, entryMember, rfl⟩ := List.mem_map.mp member
        exact (List.le_of_mem_argmax entryMember found).trans empty
      have nonpositive := List.sum_le_card_nsmul _ 0 all
      rw [nsmul_zero] at nonpositive
      omega
    cases listed : listPartitionFiles (largest.1.dir cwd) disk with
    | nil =>
      have none_ := bytes_listPartitionFiles (largest.1.dir cwd) disk
      rw [listed] at none_
      rw [measured.2, ← none_] at positive
      exact absurd (Int.le_refl 0) positive
    | cons file files => exact ⟨largest, file, files, rfl, positive, listed⟩

theorem setSize_measure {largest : Topic × ℤ} {file : StoredFile}
    (slugs : (specs.map Topic.slug).Nodup) (apart : Apart cwd specs disk) (member : largest ∈ Pass.measure cwd specs disk)
    (oldest : Oldest (largest.1.dir cwd) disk file) :
    Pass.setSize (Pass.measure cwd specs disk) largest.1.slug (largest.2 - file.size) = Pass.measure cwd specs (disk.erase file) := by
  have measured := mem_measure member
  unfold Pass.setSize Pass.measure
  rw [List.map_map]
  apply List.map_congr_left
  intro topic listed
  simp only [Function.comp_apply]
  split
  · next same =>
    have topicLargest : topic = largest.1 := List.inj_on_of_nodup_map slugs listed measured.1 same
    have removed : topicDirSizeBytes (largest.1.dir cwd) disk = file.size + topicDirSizeBytes (largest.1.dir cwd) (disk.erase file) :=
      bytes_filter_erase (fun other => other.under (largest.1.dir cwd)) oldest.member oldest.inside
    rw [measured.2, topicLargest, removed, Int.natCast_add]
    exact congrArg (Prod.mk largest.1) (by omega)
  · next other =>
    have different : largest.1 ≠ topic := fun same => other (same ▸ rfl)
    have outside := apart largest.1 measured.1 topic listed different file oldest.member oldest.inside
    have unchanged : topicDirSizeBytes (topic.dir cwd) (disk.erase file) = topicDirSizeBytes (topic.dir cwd) disk :=
      congrArg bytes (filter_erase_of_outside (fun other => other.under (topic.dir cwd)) outside)
    rw [unchanged]

/-- A deletion by the global cap, of the oldest file of a directory while all directories held more than the cap. -/
structure GlobalDeletion (cwd : List String) (specs : List Topic) (maxBytes : ℕ) (deletion : Deletion) : Prop where
  cap : deletion.cap = .global
  exceeds : maxBytes < bytesUnderAny (specs.map (Topic.dir · cwd)) deletion.before
  oldest : ∃ topic ∈ specs, Oldest (topic.dir cwd) deletion.before deletion.file

/-- What the rounds of the global cap do: each removes the oldest file of the largest directory, and they end under the cap or by their number. -/
structure PrunedGlobally (cwd : List String) (specs : List Topic) (maxBytes rounds : ℕ) (before after : Pass) : Prop where
  iterated : ∃ done ≤ rounds, after.disk = (oldestOfLargest cwd specs)^[done] before.disk ∧
    (done < rounds → bytesUnderAny (specs.map (Topic.dir · cwd)) after.disk ≤ maxBytes)
  outside : ∀ file ∈ before.disk, (∀ topic ∈ specs, file.under (topic.dir cwd) = false) → file ∈ after.disk
  deletions : ∀ deletion ∈ after.deletions, deletion ∈ before.deletions ∨
    deletion.before.Sublist before.disk ∧ GlobalDeletion cwd specs maxBytes deletion

theorem globalRounds_spec (slugs : (specs.map Topic.slug).Nodup) (maxBytes rounds : ℕ) (pass : Pass)
    (apart : Apart cwd specs pass.disk) :
    PrunedGlobally cwd specs maxBytes rounds pass (Pass.globalRounds cwd maxBytes rounds (Pass.measure cwd specs pass.disk)
      (bytesUnderAny (specs.map (Topic.dir · cwd)) pass.disk) pass) := by
  induction rounds generalizing pass with
  | zero => exact ⟨⟨0, Nat.le_refl 0, rfl, fun more => absurd more (Nat.lt_irrefl 0)⟩, fun _ member _ => member, fun _ member => .inl member⟩
  | succ rounds ih =>
    unfold Pass.globalRounds
    split
    · next within =>
      exact ⟨⟨0, Nat.zero_le _, rfl, fun _ => by omega⟩, fun _ member _ => member, fun _ member => .inl member⟩
    · next exceeds =>
      have positive : 0 < bytesUnderAny (specs.map (Topic.dir · cwd)) pass.disk := by omega
      obtain ⟨largest, file, files, found, large, listed⟩ := exists_oldest (List.Nodup.of_map _ slugs) apart positive
      have exceeded : maxBytes < bytesUnderAny (specs.map (Topic.dir · cwd)) pass.disk := by omega
      have member := List.argmax_mem found
      have measured := mem_measure member
      have oldest := oldest_of_listed listed
      have inSome : (specs.map (Topic.dir · cwd)).any file.under = true :=
        List.any_eq_true.mpr ⟨largest.1.dir cwd, List.mem_map_of_mem measured.1, oldest.inside⟩
      have removed := bytes_filter_erase (fun other => (specs.map (Topic.dir · cwd)).any other.under) oldest.member inSome
      have left : (bytesUnderAny (specs.map (Topic.dir · cwd)) pass.disk : ℤ) - file.size =
          bytesUnderAny (specs.map (Topic.dir · cwd)) (pass.disk.erase file) := by
        unfold bytesUnderAny
        omega
      have removes : oldestOfLargest cwd specs pass.disk = pass.disk.erase file := by
        simp only [oldestOfLargest, found, listed]
      have rest := ih (pass.unlink .global file) (apart.mono List.erase_sublist)
      simp only [found, large, if_false, listed, setSize_measure slugs apart member oldest, left]
      refine ⟨?_, fun other otherMember away => ?_, fun deletion deleted => ?_⟩
      · obtain ⟨done, few, reached, under⟩ := rest.iterated
        refine ⟨done + 1, Nat.succ_le_succ few, ?_, fun early => under (by omega)⟩
        rw [Function.iterate_succ_apply, removes]
        exact reached
      · exact rest.outside other (Pass.mem_erase_of_outside oldest.inside otherMember (away largest.1 measured.1)) away
      · match rest.deletions deletion deleted with
        | .inr late => exact .inr ⟨late.1.trans List.erase_sublist, late.2⟩
        | .inl earlier =>
          cases List.mem_append.mp earlier with
          | inl older => exact .inl older
          | inr last =>
            rw [List.mem_singleton] at last
            rw [last]
            exact .inr ⟨List.Sublist.refl _, rfl, exceeded, largest.1, measured.1, oldest⟩

theorem pruneGlobalSize_spec (slugs : (specs.map Topic.slug).Nodup) (maxBytes : ℕ) (pass : Pass)
    (apart : Apart cwd specs pass.disk) : PrunedGlobally cwd specs maxBytes 1000 pass (Pass.pruneGlobalSize cwd specs maxBytes pass) := by
  unfold Pass.pruneGlobalSize
  simp only [sum_measure (List.Nodup.of_map _ slugs) apart]
  exact globalRounds_spec slugs maxBytes 1000 pass apart

theorem PrunedGlobally.kept {maxBytes rounds : ℕ} {before after : Pass}
    (pruned : PrunedGlobally cwd specs maxBytes rounds before after) : after.disk.Sublist before.disk := by
  obtain ⟨done, -, reached, -⟩ := pruned.iterated
  rw [reached]
  have later := @oldestOfLargest_iterate cwd specs before.disk 0 done
  rwa [Nat.zero_add] at later

/-- The rounds end under the cap exactly if as many removals of the oldest file of the largest directory get there. -/
theorem PrunedGlobally.under_iff {maxBytes rounds : ℕ} {before after : Pass}
    (pruned : PrunedGlobally cwd specs maxBytes rounds before after) :
    bytesUnderAny (specs.map (Topic.dir · cwd)) after.disk ≤ maxBytes ↔
      bytesUnderAny (specs.map (Topic.dir · cwd)) ((oldestOfLargest cwd specs)^[rounds] before.disk) ≤ maxBytes := by
  obtain ⟨done, few, reached, under⟩ := pruned.iterated
  have fewer : bytesUnderAny (specs.map (Topic.dir · cwd)) ((oldestOfLargest cwd specs)^[rounds] before.disk) ≤
      bytesUnderAny (specs.map (Topic.dir · cwd)) after.disk := by
    rw [reached]
    have later := @oldestOfLargest_iterate cwd specs before.disk done (rounds - done)
    rw [Nat.add_sub_cancel' few] at later
    exact bytes_le_of_sublist (later.filter _)
  refine ⟨fewer.trans, fun reaches => ?_⟩
  cases Nat.lt_or_eq_of_le few with
  | inl early => exact under early
  | inr all =>
    rw [reached, all]
    exact reaches

end Callisto.Bus.Pruner
