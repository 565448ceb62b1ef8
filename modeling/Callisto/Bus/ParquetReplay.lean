import Callisto.Bus.ParquetWriter
import Callisto.Library.Traversals

/-! Recording a topic and replaying a window of it: what is found again, and in which order. -/

namespace Callisto.Bus

open Callisto.Library
open scoped List

variable {platform : Platform} {names : ℕ → String} {files : List ParquetFile} {window : ReplayWindow} {slug : String}

theorem flatMap_keys {α β κ : Type} [DecidableEq κ] (key : α → κ) (next : α → List β) (items : List α) {keys : List κ} (apart : keys.Nodup) :
    (keys.flatMap fun name => (items.filter fun item => key item = name).flatMap next) ~
      (items.filter fun item => key item ∈ keys).flatMap next := by
  induction keys with
  | nil => simp
  | cons name keys ih =>
    obtain ⟨fresh, apart⟩ := List.nodup_cons.1 apart
    have split := List.filter_append_perm (fun item => decide (key item = name)) (items.filter fun item => key item ∈ name :: keys)
    have mine : (items.filter fun item => key item ∈ name :: keys).filter (fun item => decide (key item = name)) =
        items.filter fun item => key item = name := by
      rw [List.filter_filter]
      refine List.filter_congr fun item _ => ?_
      by_cases same : key item = name
      · simp [same]
      · simp [same]
    have others : (items.filter fun item => key item ∈ name :: keys).filter (fun item => !decide (key item = name)) =
        items.filter fun item => key item ∈ keys := by
      rw [List.filter_filter]
      refine List.filter_congr fun item _ => ?_
      by_cases same : key item = name
      · simp [same, fresh]
      · simp [same]
    rw [mine, others] at split
    rw [List.flatMap_cons]
    calc _ ~ (items.filter fun item => key item = name).flatMap next ++ (items.filter fun item => key item ∈ keys).flatMap next :=
          (ih apart).append_left _
      _ = ((items.filter fun item => key item = name) ++ items.filter fun item => key item ∈ keys).flatMap next := List.flatMap_append.symm
      _ ~ _ := split.flatMap_right next

theorem mem_windowDays {day : ℤ} : day ∈ windowDays platform window ↔ window.reads platform day = true := by
  unfold windowDays ReplayWindow.reads
  rw [List.mem_map, Bool.and_eq_true, decide_eq_true_eq, decide_eq_true_eq]
  constructor
  · intro found
    obtain ⟨offset, member, rfl⟩ := found
    have bound := List.mem_range.1 member
    omega
  · intro read
    exact ⟨(day - (platform.utcDay window.startUs - 1)).toNat, List.mem_range.2 (by omega), by omega⟩

theorem windowDays_ascend : (windowDays platform window).Pairwise (· < ·) := by
  unfold windowDays
  refine List.pairwise_map.2 (List.pairwise_lt_range.imp fun {one other} less => ?_)
  omega

theorem readFileRows_perm (window : ReplayWindow) (file : ParquetFile) : readFileRows window file ~ file.rows.filter window.covers :=
  List.mergeSort_perm _ _

variable {file : ParquetFile}

theorem mem_readFileRows {event : RecordedEvent} :
    event ∈ readFileRows window file ↔ event ∈ file.rows ∧ window.covers event = true := by
  rw [(readFileRows_perm window file).mem_iff, List.mem_filter]

theorem readFileRows_ordered (window : ReplayWindow) (file : ParquetFile) :
    (readFileRows window file).Pairwise fun one other => one.time window.timeField ≤ other.time window.timeField := by
  refine (pairwise_sortedBy (rowKey window.timeField) (file.rows.filter window.covers)).imp fun {one other} below => ?_
  cases Prod.Lex.toLex_le_toLex.1 below with
  | inl less => exact less.le
  | inr equal => exact equal.1.le

theorem covers_keepsFile {event : RecordedEvent} (member : event ∈ file.rows) (covered : window.covers event = true) :
    keepsFile window file = true := by
  unfold keepsFile
  have time : event.time window.timeField ∈ file.rows.map fun event => event.time window.timeField := List.mem_map.2 ⟨event, member, rfl⟩
  have bounds : window.startUs ≤ event.time window.timeField ∧ event.time window.timeField < window.endUs := by
    simpa [ReplayWindow.covers] using covered
  dsimp only
  split
  · next low high least greatest =>
    have below := (List.min?_eq_some_iff.1 least).2 _ time
    have above := (List.max?_eq_some_iff.1 greatest).2 _ time
    refine decide_eq_true fun outside => ?_
    omega
  · rfl

def partitionRows (window : ReplayWindow) (file : ParquetFile) : List RecordedEvent := file.rows.filter window.covers

theorem partition_perm (segment : String) (day : ℤ) :
    (partitionFiles files window segment day).flatMap (readFileRows window) ~
      (files.filter fun file => file.segment = segment ∧ file.day = day).flatMap (partitionRows window) := by
  have sorted := List.mergeSort_perm (files.filter fun file => file.segment = segment ∧ file.day = day) fun one other => one.name ≤ other.name
  have kept : ∀ some : List ParquetFile, (some.filter (keepsFile window)).flatMap (partitionRows window) = some.flatMap (partitionRows window) := by
    intro some
    induction some with
    | nil => rfl
    | cons file rest ih =>
      by_cases keeps : keepsFile window file = true
      · rw [List.filter_cons_of_pos keeps, List.flatMap_cons, List.flatMap_cons, ih]
      · have none : partitionRows window file = [] := by
          refine List.filter_eq_nil_iff.2 fun event member covered => keeps (covers_keepsFile member covered)
        rw [List.filter_cons_of_neg keeps, ih, List.flatMap_cons, none]
        rfl
  unfold partitionFiles
  calc _ ~ _ := List.Perm.flatMap_left _ fun file _ => readFileRows_perm window file
    _ = _ := kept _
    _ ~ _ := sorted.flatMap_right _

theorem entityStream_perm (segment : String) :
    entityStream platform files window segment ~
      (files.filter fun file => file.segment = segment ∧ window.reads platform file.day).flatMap (partitionRows window) := by
  have apart : (windowDays platform window).Nodup := windowDays_ascend.imp fun less => less.ne
  have days := flatMap_keys ParquetFile.day (partitionRows window) (files.filter fun file => file.segment = segment) apart
  have split : ∀ day, ((files.filter fun file => file.segment = segment).filter fun file => file.day = day) =
      files.filter fun file => file.segment = segment ∧ file.day = day := by
    intro day
    rw [List.filter_filter]
    refine List.filter_congr fun file _ => ?_
    simp [and_comm]
  have whole : ((files.filter fun file => file.segment = segment).filter fun file => file.day ∈ windowDays platform window) =
      files.filter fun file => file.segment = segment ∧ window.reads platform file.day := by
    rw [List.filter_filter]
    refine List.filter_congr fun file _ => ?_
    simp only [mem_windowDays]
    simp [Bool.and_comm]
  rw [whole] at days
  refine List.Perm.trans (List.Perm.flatMap_left _ fun day _ => ?_) days
  rw [split]
  exact partition_perm segment day

theorem entityDirs_nodup : (entityDirs platform files window slug).Nodup := by
  unfold entityDirs
  split
  · exact (List.nodup_dedup _).filter _
  · exact (List.nodup_dedup _).filter _

theorem parquetReplayer_perm : parquetReplayer platform files window slug ~
    (files.filter fun file => file.segment ∈ entityDirs platform files window slug ∧ window.reads platform file.day).flatMap
      (partitionRows window) := by
  have distinct : (entityDirs platform files window slug).Nodup := entityDirs_nodup
  have apart : (((entityDirs platform files window slug).map fun segment =>
      (segment, entityStream platform files window segment)).map Prod.fst).Nodup := by
    rw [List.map_map]
    exact (List.map_id _).symm ▸ distinct
  have merged := mergeStreams_perm (replayOrderKey window.timeField) apart
  have dirs := flatMap_keys ParquetFile.segment (partitionRows window) (files.filter fun file => window.reads platform file.day) distinct
  have whole : ((files.filter fun file => window.reads platform file.day).filter fun file =>
      file.segment ∈ entityDirs platform files window slug) =
      files.filter fun file => file.segment ∈ entityDirs platform files window slug ∧ window.reads platform file.day := by
    rw [List.filter_filter]
    refine List.filter_congr fun file _ => ?_
    simp
  rw [whole] at dirs
  refine List.Perm.trans merged (List.Perm.trans ?_ dirs)
  unfold content
  rw [List.flatMap_map]
  refine List.Perm.flatMap_left _ fun segment _ => ?_
  rw [List.filter_filter]
  have same : (files.filter fun file => decide (file.segment = segment) && window.reads platform file.day) =
      files.filter fun file => file.segment = segment ∧ window.reads platform file.day :=
    List.filter_congr fun file _ => by simp
  rw [same]
  exact entityStream_perm segment

def ReplayWindow.allows (window : ReplayWindow) (slug : String) (event : RecordedEvent) : Bool :=
  match window.entities slug with
  | some entities => event.entityId ∈ entities
  | none => true

def DirectoryRead (platform : Platform) (window : ReplayWindow) (slug segment : String) : Prop :=
  match window.entities slug with
  | some entities => segment ∈ entities.map (safeSegment platform)
  | none => segment ≠ "." ∧ segment ≠ ".."

instance (platform : Platform) (window : ReplayWindow) (slug segment : String) : Decidable (DirectoryRead platform window slug segment) := by
  unfold DirectoryRead
  split <;> infer_instance

/-- The partition of the event is read: its entity's directory, and the day it was observed on. -/
def PartitionRead (platform : Platform) (window : ReplayWindow) (slug : String) (event : RecordedEvent) : Prop :=
  DirectoryRead platform window slug (safeSegment platform event.entityId) ∧
    window.reads platform (platform.utcDay event.observedAtUs) = true

instance (platform : Platform) (window : ReplayWindow) (slug : String) (event : RecordedEvent) :
    Decidable (PartitionRead platform window slug event) := inferInstanceAs (Decidable (_ ∧ _))

def FileBefore (first second : ParquetFile) : Prop := first.day < second.day ∨ (first.day = second.day ∧ first.name < second.name)

/-- In the directories and days that are read, no event of the window stands in a later file with an earlier time. -/
def FilesInOrder (platform : Platform) (window : ReplayWindow) (slug : String) (files : List ParquetFile) : Prop :=
  ∀ first ∈ files, ∀ second ∈ files, first.segment = second.segment → DirectoryRead platform window slug first.segment →
    window.reads platform first.day = true → window.reads platform second.day = true → FileBefore first second →
    ∀ one ∈ first.rows, window.covers one = true → ∀ other ∈ second.rows, window.covers other = true →
      one.time window.timeField ≤ other.time window.timeField

theorem mem_entityDirs (member : file ∈ files) :
    file.segment ∈ entityDirs platform files window slug ↔ DirectoryRead platform window slug file.segment := by
  have known : file.segment ∈ files.map ParquetFile.segment := List.mem_map.2 ⟨file, member, rfl⟩
  unfold entityDirs DirectoryRead
  cases window.entities slug with
  | some entities =>
    dsimp only
    rw [List.mem_filter, List.mem_dedup, and_iff_left (decide_eq_true known)]
  | none =>
    dsimp only
    rw [List.mem_filter, List.mem_dedup, and_iff_right known, decide_eq_true_eq]

theorem filter_perm_iff {α : Type} (first second : α → Bool) (items : List α) :
    items.filter first ~ items.filter second ↔ ∀ item ∈ items, first item = second item := by
  constructor
  · intro same item member
    have both := same.mem_iff (a := item)
    rw [List.mem_filter, List.mem_filter] at both
    exact Bool.eq_iff_iff.2 ⟨fun chosen => (both.1 ⟨member, chosen⟩).2, fun chosen => (both.2 ⟨member, chosen⟩).2⟩
  · intro same
    rw [List.filter_congr same]

theorem readRows_eq (placed : ∀ file ∈ files, ∀ event ∈ file.rows,
      file.segment = safeSegment platform event.entityId ∧ file.day = platform.utcDay event.observedAtUs) :
    (files.filter fun file => file.segment ∈ entityDirs platform files window slug ∧ window.reads platform file.day).flatMap
      (partitionRows window) =
    (storedRows files).filter fun event => PartitionRead platform window slug event ∧ window.covers event := by
  have dirs : (files.filter fun file => file.segment ∈ entityDirs platform files window slug ∧ window.reads platform file.day) =
      files.filter fun file => DirectoryRead platform window slug file.segment ∧ window.reads platform file.day :=
    List.filter_congr fun file member => by simp only [mem_entityDirs member]
  rw [dirs]
  clear dirs
  unfold storedRows
  induction files with
  | nil => rfl
  | cons file rest ih =>
    have later := ih fun other member => placed other (List.mem_cons_of_mem _ member)
    have mine : ∀ event ∈ file.rows, (PartitionRead platform window slug event ↔
        DirectoryRead platform window slug file.segment ∧ window.reads platform file.day = true) := by
      intro event member
      obtain ⟨segment, day⟩ := placed file List.mem_cons_self event member
      rw [PartitionRead, segment, day]
    rw [List.flatMap_cons, List.filter_append, ← later]
    by_cases read : DirectoryRead platform window slug file.segment ∧ window.reads platform file.day = true
    · rw [List.filter_cons_of_pos (by simpa using read), List.flatMap_cons]
      congr 1
      exact List.filter_congr fun event member => by simp [(mine event member).2 read]
    · have none : (file.rows.filter fun event => PartitionRead platform window slug event ∧ window.covers event) = [] := by
        refine List.filter_eq_nil_iff.2 fun event member chosen => read ((mine event member).1 ?_)
        exact (of_decide_eq_true chosen).1
      rw [List.filter_cons_of_neg (by simpa using read), none]
      rfl

theorem mem_partitionFiles {segment : String} {day : ℤ} :
    file ∈ partitionFiles files window segment day ↔ file ∈ files ∧ file.segment = segment ∧ file.day = day ∧ keepsFile window file = true := by
  unfold partitionFiles
  rw [List.mem_filter, List.mem_mergeSort, List.mem_filter, decide_eq_true_eq]
  simp only [and_assoc]

def entityFiles (platform : Platform) (files : List ParquetFile) (window : ReplayWindow) (segment : String) : List ParquetFile :=
  (windowDays platform window).flatMap fun day => partitionFiles files window segment day

theorem mem_entityFiles {segment : String} : file ∈ entityFiles platform files window segment ↔
    file ∈ files ∧ file.segment = segment ∧ window.reads platform file.day = true ∧ keepsFile window file = true := by
  unfold entityFiles
  rw [List.mem_flatMap]
  constructor
  · intro found
    obtain ⟨day, read, member⟩ := found
    obtain ⟨there, segment, rfl, keeps⟩ := mem_partitionFiles.1 member
    exact ⟨there, segment, mem_windowDays.1 read, keeps⟩
  · intro found
    obtain ⟨there, segment, read, keeps⟩ := found
    exact ⟨file.day, mem_windowDays.2 read, mem_partitionFiles.2 ⟨there, segment, rfl, keeps⟩⟩

theorem entityFiles_before (distinct : files.Pairwise fun one other => one.name ≠ other.name) (segment : String) :
    (entityFiles platform files window segment).Pairwise FileBefore := by
  refine List.pairwise_flatMap.2 ⟨fun day _ => ?_, ?_⟩
  · have sorted := pairwise_sortedBy ParquetFile.name (files.filter fun file => file.segment = segment ∧ file.day = day)
    have apart : ((files.filter fun file => file.segment = segment ∧ file.day = day).mergeSort fun one other => one.name ≤ other.name).Pairwise
        fun one other => one.name ≠ other.name :=
      (List.mergeSort_perm _ _).symm.pairwise (distinct.filter _) fun less => less.symm
    refine ((sorted.and apart).filter (keepsFile window)).imp_of_mem fun {one other} here there both => ?_
    have first := (mem_partitionFiles.1 here).2.2.1
    have second := (mem_partitionFiles.1 there).2.2.1
    exact .inr ⟨first.trans second.symm, lt_of_le_of_ne both.1 both.2⟩
  · refine windowDays_ascend.imp fun {day later} less one here other there => .inl ?_
    rw [(mem_partitionFiles.1 here).2.2.1, (mem_partitionFiles.1 there).2.2.1]
    exact less

theorem entityStream_ordered (distinct : files.Pairwise fun one other => one.name ≠ other.name) (segment : String) :
    (entityStream platform files window segment).Pairwise (fun one other => one.time window.timeField ≤ other.time window.timeField) ↔
      ∀ first ∈ files, ∀ second ∈ files, first.segment = segment → second.segment = segment →
        window.reads platform first.day = true → window.reads platform second.day = true → FileBefore first second →
        ∀ one ∈ first.rows, window.covers one = true → ∀ other ∈ second.rows, window.covers other = true →
          one.time window.timeField ≤ other.time window.timeField := by
  have stream : entityStream platform files window segment = (entityFiles platform files window segment).flatMap (readFileRows window) := by
    unfold entityStream entityFiles
    rw [List.flatMap_assoc]
  have before := @entityFiles_before platform files window distinct segment
  rw [stream, List.pairwise_flatMap, and_iff_right fun file _ => readFileRows_ordered window file]
  constructor
  · intro ordered first here second there firstSegment secondSegment firstRead secondRead earlier one inside covered other held kept
    have mine := mem_entityFiles.2 ⟨here, firstSegment, firstRead, covers_keepsFile inside covered⟩
    have theirs := mem_entityFiles.2 ⟨there, secondSegment, secondRead, covers_keepsFile held kept⟩
    obtain same | inOrder | turned := pairwise_either (before.and ordered) mine theirs
    · subst same
      unfold FileBefore at earlier
      simp at earlier
    · exact inOrder.2 one (mem_readFileRows.2 ⟨inside, covered⟩) other (mem_readFileRows.2 ⟨held, kept⟩)
    · have back := turned.1
      unfold FileBefore at earlier back
      obtain less | ⟨same, less⟩ := earlier
      · omega
      · obtain more | ⟨-, more⟩ := back
        · omega
        · exact absurd less more.asymm
  · intro ordered
    refine before.imp_of_mem fun {first second} here there earlier one inside other held => ?_
    obtain ⟨firstMember, firstSegment, firstRead, -⟩ := mem_entityFiles.1 here
    obtain ⟨secondMember, secondSegment, secondRead, -⟩ := mem_entityFiles.1 there
    obtain ⟨inside, covered⟩ := mem_readFileRows.1 inside
    obtain ⟨held, kept⟩ := mem_readFileRows.1 held
    exact ordered first firstMember second secondMember firstSegment secondSegment firstRead secondRead earlier one inside covered other held kept

theorem parquetReplayer_ordered (distinct : files.Pairwise fun one other => one.name ≠ other.name) :
    (parquetReplayer platform files window slug).Pairwise (fun one other => one.time window.timeField ≤ other.time window.timeField) ↔
      FilesInOrder platform window slug files := by
  have apart : (((entityDirs platform files window slug).map fun segment =>
      (segment, entityStream platform files window segment)).map Prod.fst).Nodup := by
    rw [List.map_map]
    exact (List.map_id _).symm ▸ entityDirs_nodup
  unfold parquetReplayer
  rw [mergeStreams_sorted_iff (fun _ _ below => time_le_of_key below) apart, List.forall_mem_map]
  constructor
  · intro each first here second there same read
    have listed : first.segment ∈ entityDirs platform files window slug := (mem_entityDirs here).2 read
    exact (entityStream_ordered distinct first.segment).1 (each first.segment listed) first here second there rfl same.symm
  · intro ordered segment listed
    refine (entityStream_ordered distinct segment).2 fun first here second there firstSegment secondSegment => ?_
    have read : DirectoryRead platform window slug first.segment := (mem_entityDirs here).1 (firstSegment ▸ listed)
    exact ordered first here second there (firstSegment.trans secondSegment.symm) read

def samplePlatform : Platform := ⟨fun time => time / 86400000000, fun value => value⟩

def sampleNames (number : ℕ) : String := String.ofList (List.replicate number 'f')

theorem sampleNames_injective : Function.Injective sampleNames := by
  intro first second same
  have lengths := congrArg (fun name : String => name.toList.length) same
  simpa [sampleNames] using lengths

def tradeEvent (entityId : String) (identified : entityId ≠ "") : RecordedEvent :=
  { bookEvent 1 with entityId := entityId, sequence := none, identified := identified }

def tradeWindow : ReplayWindow := { bookWindow with entityFilter := some [("book.feed", ["a-b"])] }

/-- A trade observed and ingested so many microseconds after the first. -/
def tradeAt (entityId : String) (identified : entityId ≠ "") (after : ℕ) : RecordedEvent :=
  { tradeEvent entityId identified with
    observedAtUs := after + 1
    ingestedAtUs := after + 1
    observed := by omega
    ingested := by omega
    forward := by omega }

/-- Two entities are recorded over two days, the second day late and out of order. -/
def twoDays : List WriterStep :=
  [.offer (tradeAt "a-b" (by decide) 0), .offer (tradeAt "c" (by decide) 1), .flush true, .offer (tradeAt "a-b" (by decide) 86400000007),
    .offer (tradeAt "c" (by decide) 86400000005), .offer (tradeAt "a-b" (by decide) 86400000003)]

def twoDayWindow : ReplayWindow := { tradeWindow with endUs := 172800000000, ordered := by decide }

instance (first second : ParquetFile) : Decidable (FileBefore first second) := inferInstanceAs (Decidable (_ ∨ _))

instance (platform : Platform) (window : ReplayWindow) (slug : String) (files : List ParquetFile) :
    Decidable (FilesInOrder platform window slug files) := by
  unfold FilesInOrder
  infer_instance

end Callisto.Bus
