import Mathlib.Algebra.Field.Rat
import Mathlib.Algebra.Order.BigOperators.Group.List
import Mathlib.Algebra.Order.Field.Basic
import Mathlib.Algebra.Order.Ring.Rat
import Mathlib.Data.List.Chain
import Mathlib.Data.List.Forall2
import MiniIotRobotEdge.ControlScadaAlarms
import MiniIotRobotEdge.StepRuns

/-!
# The history of mini-industrial-control

The model of the scans and the history of `scada_collect.c`, over exact
numbers.  The recorder that it is compared with writes down every value, every
scan with its full time and every report, and answers from its notes.
-/

namespace MiniIotRobotEdge

namespace Control

namespace ScadaHistory

open AnsweredRuns

def scadaMaxHistoryPoints : Nat := 10000

structure ScadaTagSettings (K : Type*) where
  scanRateMs : UInt32
  deadband : K
  quality : UInt8
  enabled : Bool
  archiving : Bool
  scaleFactor : K
  offset : K

/-- The fields of `scada_tag_t` that the scans use. -/
structure ScadaTag (K : Type*) extends ScadaTagSettings K where
  lastScanMs : UInt32
  currentValue : K
  prevValue : K

structure ScadaHistoryPoint (K : Type*) where
  timestampMs : UInt64
  value : K
  quality : UInt8
  tagIndex : Nat
  deriving DecidableEq

structure ScadaCollector (K : Type*) where
  tags : List (ScadaTag K)
  history : Nat → ScadaHistoryPoint K
  numHistoryPoints : Nat
  historyWriteIndex : Nat
  collecting : Bool

/-- The calls of a run.  The fields that no function sets are set by hand. -/
inductive ScadaCall (K : Type*)
  | addTag (scanRateMs : UInt32)
  | removeTag (tagIndex : Nat)
  | setTagScale (tagIndex : Nat) (scale offset : K)
  | setTagDeadband (tagIndex : Nat) (deadband : K)
  | setTag (tagIndex : Nat) (quality : UInt8) (enabled archiving : Bool)
  | setCollecting (collecting : Bool)
  | readTag (tagIndex : Nat)
  | writeTagValue (tagIndex : Nat) (value : K)
  | pollTag (tagIndex : Nat) (currentTimeMs : UInt64)
  | pollAllTags (currentTimeMs : UInt64)
  | storeHistoryPoint (tagIndex : Nat) (value : K) (quality : UInt8) (timestamp : UInt64)
  | queryHistory (tagIndex : Nat) (startTimeMs endTimeMs : UInt64) (maxResults : Int)

inductive ScadaAnswer (K : Type*)
  | done
  | numTags (numTags : Nat)
  | accepted (accepted : Bool)
  | value (value : Option K)
  | points (points : List (ScadaHistoryPoint K))
  deriving DecidableEq

section Functions

variable {K : Type*} [Field K] [LinearOrder K]

def scadaInitCollector : ScadaCollector K where
  tags := []
  history := fun _ => ⟨0, 0, 0, 0⟩
  numHistoryPoints := 0
  historyWriteIndex := 0
  collecting := false

/-- The settings of a tag that is added. -/
def addedSettings (scanRateMs : UInt32) : ScadaTagSettings K where
  scanRateMs := scanRateMs
  deadband := 1 / (2 : ℕ)
  quality := 0
  enabled := true
  archiving := true
  scaleFactor := 1
  offset := 0

def scadaAddTag (collector : ScadaCollector K) (scanRateMs : UInt32) : ScadaCollector K × Nat :=
  if scadaMaxTags ≤ collector.tags.length then (collector, 0)
  else ({ collector with tags := collector.tags ++ [⟨addedSettings scanRateMs, 0, 0, 0⟩] },
    collector.tags.length + 1)

def scadaRemoveTag (collector : ScadaCollector K) (tagIndex : Nat) : ScadaCollector K × Bool :=
  if collector.tags.length ≤ tagIndex then (collector, false)
  else ({ collector with tags := collector.tags.eraseIdx tagIndex }, true)

def scadaSetTagScale (scale offset : K) (tag : ScadaTagSettings K) : ScadaTagSettings K :=
  { tag with scaleFactor := scale, offset := offset }

def scadaSetTagDeadband (deadband : K) (tag : ScadaTagSettings K) : ScadaTagSettings K :=
  if 0 ≤ deadband then { tag with deadband := deadband } else tag

/-- What is assigned to a tag by hand. -/
def setTag (quality : UInt8) (enabled archiving : Bool) (tag : ScadaTagSettings K) :
    ScadaTagSettings K :=
  { tag with quality := quality, enabled := enabled, archiving := archiving }

def scadaReadTag (collector : ScadaCollector K) (tagIndex : Nat) : Option K :=
  collector.tags[tagIndex]?.map fun tag => tag.currentValue * tag.scaleFactor + tag.offset

def scadaWriteTagValue (collector : ScadaCollector K) (tagIndex : Nat) (value : K) :
    ScadaCollector K × Bool :=
  if collector.tags.length ≤ tagIndex then (collector, false)
  else ({ collector with tags := collector.tags.modify tagIndex fun tag =>
      { tag with prevValue := tag.currentValue, currentValue := value } }, true)

def scadaStoreHistoryPoint (collector : ScadaCollector K) (tagIndex : Nat) (value : K)
    (quality : UInt8) (timestamp : UInt64) : ScadaCollector K × Bool :=
  if collector.tags.length ≤ tagIndex then (collector, false)
  else if scadaMaxHistoryPoints ≤ collector.numHistoryPoints then (collector, false)
  else
    ({ collector with
        history := Function.update collector.history collector.historyWriteIndex
          ⟨timestamp, value, quality, tagIndex⟩
        historyWriteIndex :=
          if scadaMaxHistoryPoints ≤ collector.historyWriteIndex + 1 then 0
          else collector.historyWriteIndex + 1
        numHistoryPoints := collector.numHistoryPoints + 1 }, true)

/-- `changed` of `scada_poll_tag`. -/
def ScadaTag.changed (tag : ScadaTag K) : Bool :=
  decide (tag.deadband < |tag.currentValue - tag.prevValue|)

def scadaPollTag (collector : ScadaCollector K) (tagIndex : Nat) (currentTimeMs : UInt64) :
    ScadaCollector K :=
  match collector.tags[tagIndex]? with
  | none => collector
  | some tag =>
      if tag.enabled = false then collector
      else if currentTimeMs - tag.lastScanMs.toUInt64 < tag.scanRateMs.toUInt64 then collector
      else
        let stored :=
          if tag.changed && tag.archiving then
            (scadaStoreHistoryPoint collector tagIndex tag.currentValue tag.quality
              currentTimeMs).1
          else collector
        { stored with tags := stored.tags.modify tagIndex fun tag =>
            { tag with lastScanMs := currentTimeMs.toUInt32, prevValue := tag.currentValue } }

def scadaPollAllTags (collector : ScadaCollector K) (currentTimeMs : UInt64) : ScadaCollector K :=
  if collector.collecting = false then collector
  else (List.range collector.tags.length).foldl
    (fun collector i => scadaPollTag collector i currentTimeMs) collector

/-- The condition of `scada_query_history` on a point. -/
def ScadaHistoryPoint.asked (tagIndex : Nat) (startTimeMs endTimeMs : UInt64)
    (point : ScadaHistoryPoint K) : Bool :=
  decide (point.tagIndex = tagIndex ∧ startTimeMs ≤ point.timestampMs ∧
    point.timestampMs ≤ endTimeMs)

/-- A pass of the loop of `scada_query_history`, which ends at `max_results`. -/
def queryPoint (tagIndex : Nat) (startTimeMs endTimeMs : UInt64) (maxResults : Int)
    (results : List (ScadaHistoryPoint K)) (point : ScadaHistoryPoint K) :
    List (ScadaHistoryPoint K) :=
  if (results.length : Int) < maxResults then
    if point.asked tagIndex startTimeMs endTimeMs then results ++ [point] else results
  else results

def scadaQueryHistory (collector : ScadaCollector K) (tagIndex : Nat)
    (startTimeMs endTimeMs : UInt64) (maxResults : Int) : List (ScadaHistoryPoint K) :=
  if maxResults ≤ 0 then []
  else ((List.range (min collector.numHistoryPoints scadaMaxHistoryPoints)).map
    collector.history).foldl (queryPoint tagIndex startTimeMs endTimeMs maxResults) []

/-- A change of the settings of a tag. -/
def ScadaCollector.change (collector : ScadaCollector K) (tagIndex : Nat)
    (change : ScadaTagSettings K → ScadaTagSettings K) : ScadaCollector K :=
  { collector with tags := collector.tags.modify tagIndex fun tag =>
      { tag with toScadaTagSettings := change tag.toScadaTagSettings } }

def scadaCall (collector : ScadaCollector K) : ScadaCall K → ScadaCollector K × ScadaAnswer K
  | .addTag scanRateMs => (scadaAddTag collector scanRateMs).map id .numTags
  | .removeTag tagIndex => (scadaRemoveTag collector tagIndex).map id .accepted
  | .setTagScale tagIndex scale offset =>
      (collector.change tagIndex (scadaSetTagScale scale offset), .done)
  | .setTagDeadband tagIndex deadband =>
      (collector.change tagIndex (scadaSetTagDeadband deadband), .done)
  | .setTag tagIndex quality enabled archiving =>
      (collector.change tagIndex (setTag quality enabled archiving), .done)
  | .setCollecting collecting => ({ collector with collecting := collecting }, .done)
  | .readTag tagIndex => (collector, .value (scadaReadTag collector tagIndex))
  | .writeTagValue tagIndex value =>
      (scadaWriteTagValue collector tagIndex value).map id .accepted
  | .pollTag tagIndex currentTimeMs => (scadaPollTag collector tagIndex currentTimeMs, .done)
  | .pollAllTags currentTimeMs => (scadaPollAllTags collector currentTimeMs, .done)
  | .storeHistoryPoint tagIndex value quality timestamp =>
      (scadaStoreHistoryPoint collector tagIndex value quality timestamp).map id .accepted
  | .queryHistory tagIndex startTimeMs endTimeMs maxResults =>
      (collector, .points (scadaQueryHistory collector tagIndex startTimeMs endTimeMs maxResults))

end Functions

/-! ### The recorder -/

/-- The value at the last scan, what was written since, and the times of all scans. -/
structure TagRecord (K : Type*) extends ScadaTagSettings K where
  known : K
  written : List K
  scans : List Nat

structure Recorder (K : Type*) where
  tags : List (TagRecord K)
  reports : List (ScadaHistoryPoint K)
  collecting : Bool

section Recorders

variable {K : Type*}

def TagRecord.value (record : TagRecord K) : K := record.written.getLastD record.known

/-- The value before the last write. -/
def TagRecord.before (record : TagRecord K) : K := record.written.dropLast.getLastD record.known

def TagRecord.lastScan (record : TagRecord K) : Nat := record.scans.getLastD 0

/-- Time enough has passed since the low half of the last scan's time. -/
def TagRecord.due (record : TagRecord K) (now : Nat) : Prop :=
  now < record.lastScan % 2 ^ 32 ∨
    record.lastScan % 2 ^ 32 + record.scanRateMs.toNat ≤ now

instance (record : TagRecord K) (now : Nat) : Decidable (record.due now) :=
  inferInstanceAs (Decidable (_ ∨ _))

def TagRecord.write (value : K) (record : TagRecord K) : TagRecord K :=
  { record with written := record.written ++ [value] }

def TagRecord.scan (now : Nat) (record : TagRecord K) : TagRecord K :=
  { record with known := record.value, written := [], scans := record.scans ++ [now] }

variable [Field K] [LinearOrder K]

/-- A tag is reported if the last write since the last scan changed the value by more than the
deadband. -/
def TagRecord.report (record : TagRecord K) (tagIndex : Nat) (now : UInt64) :
    List (ScadaHistoryPoint K) :=
  if record.archiving ∧ record.written ≠ [] ∧ record.deadband < |record.value - record.before| then
    [⟨now, record.value, record.quality, tagIndex⟩]
  else []

def Recorder.poll (recorder : Recorder K) (tagIndex : Nat) (now : UInt64) : Recorder K :=
  match recorder.tags[tagIndex]? with
  | none => recorder
  | some record =>
      if record.enabled ∧ record.due now.toNat then
        { recorder with
          tags := recorder.tags.modify tagIndex (TagRecord.scan now.toNat)
          reports := recorder.reports ++ record.report tagIndex now }
      else recorder

def Recorder.change (recorder : Recorder K) (tagIndex : Nat)
    (change : ScadaTagSettings K → ScadaTagSettings K) : Recorder K :=
  { recorder with tags := recorder.tags.modify tagIndex fun record =>
      { record with toScadaTagSettings := change record.toScadaTagSettings } }

/-- The recorder takes down all reports; the collector has the first of them. -/
def recorderCall (recorder : Recorder K) : ScadaCall K → Recorder K × ScadaAnswer K
  | .addTag scanRateMs =>
      if recorder.tags.length < scadaMaxTags then
        ({ recorder with tags := recorder.tags ++ [⟨addedSettings scanRateMs, 0, [], []⟩] },
          .numTags (recorder.tags.length + 1))
      else (recorder, .numTags 0)
  | .removeTag tagIndex =>
      ({ recorder with tags := recorder.tags.eraseIdx tagIndex },
        .accepted (tagIndex < recorder.tags.length))
  | .setTagScale tagIndex scale offset =>
      (recorder.change tagIndex (scadaSetTagScale scale offset), .done)
  | .setTagDeadband tagIndex deadband =>
      (recorder.change tagIndex (scadaSetTagDeadband deadband), .done)
  | .setTag tagIndex quality enabled archiving =>
      (recorder.change tagIndex (setTag quality enabled archiving), .done)
  | .setCollecting collecting => ({ recorder with collecting := collecting }, .done)
  | .readTag tagIndex =>
      (recorder, .value (recorder.tags[tagIndex]?.map fun record =>
        record.value * record.scaleFactor + record.offset))
  | .writeTagValue tagIndex value =>
      ({ recorder with tags := recorder.tags.modify tagIndex (TagRecord.write value) },
        .accepted (tagIndex < recorder.tags.length))
  | .pollTag tagIndex now => (recorder.poll tagIndex now, .done)
  | .pollAllTags now =>
      (if recorder.collecting then
        (List.range recorder.tags.length).foldl (fun recorder i => recorder.poll i now) recorder
      else recorder, .done)
  | .storeHistoryPoint tagIndex value quality timestamp =>
      if tagIndex < recorder.tags.length then
        ({ recorder with reports := recorder.reports ++ [⟨timestamp, value, quality, tagIndex⟩] },
          .accepted (recorder.reports.length < scadaMaxHistoryPoints))
      else (recorder, .accepted false)
  | .queryHistory tagIndex startTimeMs endTimeMs maxResults =>
      (recorder, .points (((recorder.reports.take scadaMaxHistoryPoints).filter
        (ScadaHistoryPoint.asked tagIndex startTimeMs endTimeMs)).take maxResults.toNat))

end Recorders

/-! ### Related lists -/

section Lists

variable {α β : Type*} {related : α → β → Prop} {firsts : List α} {seconds : List β}

theorem forall₂_modify {f : α → α} {g : β → β} (same : List.Forall₂ related firsts seconds)
    (kept : ∀ first second, related first second → related (f first) (g second)) (index : Nat) :
    List.Forall₂ related (firsts.modify index f) (seconds.modify index g) := by
  induction same generalizing index with
  | nil =>
      rw [List.modify_nil, List.modify_nil]
      exact .nil
  | cons head tail ih =>
      cases index with
      | zero => exact .cons (kept _ _ head) tail
      | succ index => exact .cons head (ih index)

theorem forall₂_eraseIdx (same : List.Forall₂ related firsts seconds) (index : Nat) :
    List.Forall₂ related (firsts.eraseIdx index) (seconds.eraseIdx index) := by
  induction same generalizing index with
  | nil => exact .nil
  | cons head tail ih =>
      cases index with
      | zero => exact tail
      | succ index => exact .cons head (ih index)

theorem forall₂_getElem? (same : List.Forall₂ related firsts seconds) (index : Nat) :
    (firsts[index]? = none ∧ seconds[index]? = none) ∨
      ∃ first second, firsts[index]? = some first ∧ seconds[index]? = some second ∧
        related first second := by
  induction same generalizing index with
  | nil => exact .inl ⟨rfl, rfl⟩
  | cons head tail ih =>
      cases index with
      | zero => exact .inr ⟨_, _, rfl, rfl, head⟩
      | succ index => exact ih index

end Lists

/-! ### Tags -/

section Tags

variable {K : Type*} [Field K] [LinearOrder K]

/-- A tag as far as its record tells. -/
structure Shows (tag : ScadaTag K) (record : TagRecord K) : Prop where
  settings : tag.toScadaTagSettings = record.toScadaTagSettings
  deadband : 0 ≤ tag.deadband
  lastScanMs : tag.lastScanMs.toNat = record.lastScan % 2 ^ 32
  currentValue : tag.currentValue = record.value
  prevValue : tag.prevValue = record.before

variable {tag : ScadaTag K} {record : TagRecord K}

theorem Shows.write (shows : Shows tag record) (value : K) :
    Shows { tag with prevValue := tag.currentValue, currentValue := value }
      (record.write value) where
  settings := shows.settings
  deadband := shows.deadband
  lastScanMs := shows.lastScanMs
  currentValue := by
    rw [TagRecord.value, TagRecord.write]
    exact (List.getLastD_concat ..).symm
  prevValue := by
    rw [TagRecord.before, TagRecord.write, List.dropLast_concat]
    exact shows.currentValue

theorem Shows.scan (shows : Shows tag record) (now : UInt64) :
    Shows { tag with lastScanMs := now.toUInt32, prevValue := tag.currentValue }
      (record.scan now.toNat) where
  settings := shows.settings
  deadband := shows.deadband
  lastScanMs := by
    rw [TagRecord.lastScan, TagRecord.scan, List.getLastD_concat]
    exact UInt64.toNat_toUInt32 now
  currentValue := shows.currentValue
  prevValue := shows.currentValue

theorem Shows.change (shows : Shows tag record) {change : ScadaTagSettings K → ScadaTagSettings K}
    (kept : ∀ settings : ScadaTagSettings K, 0 ≤ settings.deadband → 0 ≤ (change settings).deadband) :
    Shows { tag with toScadaTagSettings := change tag.toScadaTagSettings }
      { record with toScadaTagSettings := change record.toScadaTagSettings } where
  settings := congrArg change shows.settings
  deadband := kept _ shows.deadband
  lastScanMs := shows.lastScanMs
  currentValue := shows.currentValue
  prevValue := shows.prevValue

/-- The difference on 64 bits with the low half of the last scan's time. -/
theorem Shows.due_iff (shows : Shows tag record) (now : UInt64) :
    ¬ now - tag.lastScanMs.toUInt64 < tag.scanRateMs.toUInt64 ↔ record.due now.toNat := by
  have time := now.toNat_lt
  have last := tag.lastScanMs.toNat_lt
  have rate := tag.scanRateMs.toNat_lt
  have sameRate : tag.scanRateMs = record.scanRateMs :=
    congrArg ScadaTagSettings.scanRateMs shows.settings
  rw [TagRecord.due, ← shows.lastScanMs, ← sameRate, UInt64.lt_iff_toNat_lt, UInt64.toNat_sub,
    UInt32.toNat_toUInt64, UInt32.toNat_toUInt64]
  omega

variable [IsStrictOrderedRing K]

theorem Shows.report_eq (shows : Shows tag record) (tagIndex : Nat) (now : UInt64) :
    record.report tagIndex now =
      if tag.changed && tag.archiving then [⟨now, tag.currentValue, tag.quality, tagIndex⟩]
      else [] := by
  have quiet : record.written = [] → ¬ tag.deadband < |tag.currentValue - tag.prevValue| := by
    intro nothing
    have same : tag.currentValue = tag.prevValue := by
      rw [shows.currentValue, shows.prevValue, TagRecord.value, TagRecord.before, nothing]
      rfl
    rw [same, sub_self, abs_zero]
    exact shows.deadband.not_gt
  have settings := shows.settings
  rw [TagRecord.report, ← shows.currentValue, ← shows.prevValue, ← settings, ScadaTag.changed]
  by_cases changed : tag.deadband < |tag.currentValue - tag.prevValue|
  · have written : record.written ≠ [] := fun nothing => quiet nothing changed
    simp [changed, written]
  · simp [changed]

end Tags

/-! ### Calls -/

section Calls

variable {K : Type*} [Field K] [LinearOrder K]

/-- A collector as far as the recorder's notes tell. -/
structure Kept (collector : ScadaCollector K) (recorder : Recorder K) : Prop where
  tags : List.Forall₂ Shows collector.tags recorder.tags
  count : collector.numHistoryPoints = min recorder.reports.length scadaMaxHistoryPoints
  index : collector.historyWriteIndex = collector.numHistoryPoints % scadaMaxHistoryPoints
  history : (List.range collector.numHistoryPoints).map collector.history =
    recorder.reports.take scadaMaxHistoryPoints
  collecting : collector.collecting = recorder.collecting

variable {collector : ScadaCollector K} {recorder : Recorder K}

/-- A change of the tags alone. -/
theorem Kept.of_tags (kept : Kept collector recorder) {tags : List (ScadaTag K)}
    {records : List (TagRecord K)} (shows : List.Forall₂ Shows tags records) :
    Kept { collector with tags := tags } { recorder with tags := records } where
  tags := shows
  count := kept.count
  index := kept.index
  history := kept.history
  collecting := kept.collecting

/-- A point is stored while there is room, and refused then. -/
theorem Kept.store (kept : Kept collector recorder) {tagIndex : Nat}
    (inside : tagIndex < collector.tags.length) (value : K) (quality : UInt8)
    (timestamp : UInt64) :
    Kept (scadaStoreHistoryPoint collector tagIndex value quality timestamp).1
        { recorder with reports := recorder.reports ++ [⟨timestamp, value, quality, tagIndex⟩] } ∧
      (scadaStoreHistoryPoint collector tagIndex value quality timestamp).2 =
        decide (recorder.reports.length < scadaMaxHistoryPoints) := by
  have count := kept.count
  rw [scadaStoreHistoryPoint, if_neg inside.not_ge]
  by_cases full : scadaMaxHistoryPoints ≤ collector.numHistoryPoints
  · have many : scadaMaxHistoryPoints ≤ recorder.reports.length := by omega
    rw [if_pos full, decide_eq_false many.not_gt]
    constructor
    · constructor
      case tags => exact kept.tags
      case count =>
        rw [List.length_append]
        dsimp only
        omega
      case index => exact kept.index
      case history =>
        rw [List.take_append_of_le_length many]
        exact kept.history
      case collecting => exact kept.collecting
    · rfl
  · have few : recorder.reports.length < scadaMaxHistoryPoints := by omega
    have all : collector.numHistoryPoints = recorder.reports.length := by omega
    have index : collector.historyWriteIndex = recorder.reports.length := by
      rw [kept.index, all, Nat.mod_eq_of_lt few]
    rw [if_neg full, decide_eq_true few]
    constructor
    · constructor
      case tags => exact kept.tags
      case count =>
        rw [List.length_append, List.length_singleton]
        dsimp only
        omega
      case index =>
        dsimp only
        rw [index, all]
        split_ifs with last
        · have same : recorder.reports.length + 1 = scadaMaxHistoryPoints := by omega
          rw [same, Nat.mod_self]
        · rw [Nat.mod_eq_of_lt (by omega)]
      case history =>
        have earlier := kept.history
        rw [all, List.take_of_length_le few.le] at earlier
        rw [List.take_of_length_le (by rw [List.length_append, List.length_singleton]; omega)]
        dsimp only
        rw [all, index, List.range_succ, List.map_append, List.map_singleton,
          Function.update_self]
        congr 1
        refine Eq.trans ?_ earlier
        apply List.map_congr_left
        intro i isLess
        exact Function.update_of_ne (List.mem_range.mp isLess).ne _ _
      case collecting => exact kept.collecting
    · rfl

theorem Kept.change (kept : Kept collector recorder) (tagIndex : Nat)
    {change : ScadaTagSettings K → ScadaTagSettings K}
    (nonneg : ∀ settings : ScadaTagSettings K, 0 ≤ settings.deadband →
      0 ≤ (change settings).deadband) :
    Kept (collector.change tagIndex change) (recorder.change tagIndex change) :=
  kept.of_tags (forall₂_modify kept.tags (fun _ _ shows => shows.change nonneg) tagIndex)

variable [IsStrictOrderedRing K]

theorem Kept.poll (kept : Kept collector recorder) (tagIndex : Nat) (now : UInt64) :
    Kept (scadaPollTag collector tagIndex now) (recorder.poll tagIndex now) := by
  rw [scadaPollTag, Recorder.poll]
  rcases forall₂_getElem? kept.tags tagIndex with ⟨noTag, noRecord⟩ |
    ⟨tag, record, isTag, isRecord, shows⟩
  · rw [noTag, noRecord]
    exact kept
  · have inside := (List.getElem?_eq_some_iff.mp isTag).1
    have enabled : tag.enabled = record.enabled :=
      congrArg ScadaTagSettings.enabled shows.settings
    rw [isTag, isRecord]
    dsimp only
    by_cases off : tag.enabled = false
    · rw [if_pos off, if_neg (by simp [← enabled, off])]
      exact kept
    · by_cases early : now - tag.lastScanMs.toUInt64 < tag.scanRateMs.toUInt64
      · have notDue : ¬ record.due now.toNat := fun due => (shows.due_iff now).mpr due early
        rw [if_neg off, if_pos early, if_neg (fun scanned => notDue scanned.2)]
        exact kept
      · have scanned : record.enabled = true ∧ record.due now.toNat :=
          ⟨enabled ▸ Bool.eq_true_of_not_eq_false off, (shows.due_iff now).mp early⟩
        rw [if_neg off, if_neg early, if_pos scanned, shows.report_eq]
        split_ifs with reported
        · have stored := (kept.store inside tag.currentValue tag.quality now).1
          exact stored.of_tags (forall₂_modify stored.tags (fun _ _ shows => shows.scan now) tagIndex)
        · rw [List.append_nil]
          exact kept.of_tags (forall₂_modify kept.tags (fun _ _ shows => shows.scan now) tagIndex)

theorem Kept.polls (kept : Kept collector recorder) (indices : List Nat) (now : UInt64) :
    Kept (indices.foldl (fun collector i => scadaPollTag collector i now) collector)
      (indices.foldl (fun recorder i => recorder.poll i now) recorder) := by
  induction indices generalizing collector recorder with
  | nil => exact kept
  | cons i indices ih => exact ih (kept.poll i now)

omit [Field K] [LinearOrder K] [IsStrictOrderedRing K] in
/-- The loop of the query has the first points that are asked for. -/
theorem foldl_queryPoint (tagIndex : Nat) (startTimeMs endTimeMs : UInt64) (maxResults : Int)
    (points results : List (ScadaHistoryPoint K)) :
    points.foldl (queryPoint tagIndex startTimeMs endTimeMs maxResults) results =
      results ++ (points.filter (ScadaHistoryPoint.asked tagIndex startTimeMs endTimeMs)).take
        (maxResults.toNat - results.length) := by
  induction points generalizing results with
  | nil => rw [List.foldl_nil, List.filter_nil, List.take_nil, List.append_nil]
  | cons point points ih =>
      rw [List.foldl_cons, ih, queryPoint]
      by_cases room : (results.length : Int) < maxResults
      · rw [if_pos room]
        by_cases asked : point.asked tagIndex startTimeMs endTimeMs = true
        · have more : maxResults.toNat - results.length =
              maxResults.toNat - (results.length + 1) + 1 := by omega
          rw [if_pos asked, List.filter_cons_of_pos asked, more, List.take_succ_cons,
            List.length_append, List.length_singleton, List.append_assoc, List.singleton_append]
        · rw [if_neg asked, List.filter_cons_of_neg asked]
      · have full : maxResults.toNat - results.length = 0 := by omega
        rw [if_neg room, full, List.take_zero, List.take_zero]

omit [IsStrictOrderedRing K] in
theorem Kept.query (kept : Kept collector recorder) (tagIndex : Nat)
    (startTimeMs endTimeMs : UInt64) (maxResults : Int) :
    scadaQueryHistory collector tagIndex startTimeMs endTimeMs maxResults =
      ((recorder.reports.take scadaMaxHistoryPoints).filter
        (ScadaHistoryPoint.asked tagIndex startTimeMs endTimeMs)).take maxResults.toNat := by
  have count : min collector.numHistoryPoints scadaMaxHistoryPoints =
      collector.numHistoryPoints := by
    rw [kept.count, min_assoc, min_self]
  rw [scadaQueryHistory, count, kept.history, foldl_queryPoint]
  split_ifs with none
  · rw [Int.toNat_of_nonpos none, List.take_zero]
  · rfl

/-- Every call is answered from the notes. -/
theorem Kept.call (kept : Kept collector recorder) (call : ScadaCall K) :
    (scadaCall collector call).2 = (recorderCall recorder call).2 ∧
      Kept (scadaCall collector call).1 (recorderCall recorder call).1 := by
  have length := kept.tags.length_eq
  cases call with
  | addTag scanRateMs =>
      have added : Shows ⟨addedSettings scanRateMs, 0, 0, 0⟩
          (⟨addedSettings scanRateMs, 0, [], []⟩ : TagRecord K) :=
        ⟨rfl, one_div_nonneg.mpr (Nat.cast_nonneg 2), rfl, rfl, rfl⟩
      rw [scadaCall, scadaAddTag, recorderCall]
      by_cases full : scadaMaxTags ≤ collector.tags.length
      · rw [if_pos full, if_neg (by omega)]
        exact ⟨rfl, kept⟩
      · rw [if_neg full, if_pos (by omega)]
        constructor
        · exact congrArg (fun count => ScadaAnswer.numTags (count + 1)) length
        · exact kept.of_tags (List.rel_append kept.tags (.cons added .nil))
  | removeTag tagIndex =>
      rw [scadaCall, scadaRemoveTag, recorderCall]
      by_cases outside : collector.tags.length ≤ tagIndex
      · rw [if_pos outside, List.eraseIdx_of_length_le (length ▸ outside),
          decide_eq_false (by omega)]
        exact ⟨rfl, kept⟩
      · rw [if_neg outside, decide_eq_true (by omega)]
        exact ⟨rfl, kept.of_tags (forall₂_eraseIdx kept.tags tagIndex)⟩
  | setTagScale tagIndex scale offset =>
      exact ⟨rfl, kept.change tagIndex fun _ nonneg => nonneg⟩
  | setTagDeadband tagIndex deadband =>
      constructor
      · rfl
      · apply kept.change
        intro settings nonneg
        rw [scadaSetTagDeadband]
        split_ifs with accepted
        · exact accepted
        · exact nonneg
  | setTag tagIndex quality enabled archiving =>
      exact ⟨rfl, kept.change tagIndex fun _ nonneg => nonneg⟩
  | setCollecting collecting =>
      exact ⟨rfl, ⟨kept.tags, kept.count, kept.index, kept.history, rfl⟩⟩
  | readTag tagIndex =>
      constructor
      · rw [scadaCall, scadaReadTag, recorderCall]
        rcases forall₂_getElem? kept.tags tagIndex with ⟨noTag, noRecord⟩ |
          ⟨tag, record, isTag, isRecord, shows⟩
        · rw [noTag, noRecord]
          rfl
        · rw [isTag, isRecord, Option.map_some, Option.map_some, shows.settings,
            shows.currentValue]
      · exact kept
  | writeTagValue tagIndex value =>
      rw [scadaCall, scadaWriteTagValue, recorderCall]
      by_cases outside : collector.tags.length ≤ tagIndex
      · rw [if_pos outside, List.modify_eq_self (length ▸ outside), decide_eq_false (by omega)]
        exact ⟨rfl, kept⟩
      · rw [if_neg outside, decide_eq_true (by omega)]
        exact ⟨rfl, kept.of_tags
          (forall₂_modify kept.tags (fun _ _ shows => shows.write value) tagIndex)⟩
  | pollTag tagIndex now => exact ⟨rfl, kept.poll tagIndex now⟩
  | pollAllTags now =>
      constructor
      · rfl
      · rw [scadaCall, scadaPollAllTags, recorderCall]
        dsimp only
        rw [kept.collecting, length]
        cases recorder.collecting with
        | false => exact kept
        | true => exact kept.polls (List.range recorder.tags.length) now
  | storeHistoryPoint tagIndex value quality timestamp =>
      rw [scadaCall, recorderCall]
      by_cases inside : tagIndex < collector.tags.length
      · obtain ⟨stored, accepted⟩ := kept.store inside value quality timestamp
        rw [if_pos (length ▸ inside)]
        exact ⟨congrArg ScadaAnswer.accepted accepted, stored⟩
      · rw [if_neg (length ▸ inside), scadaStoreHistoryPoint, if_pos (by omega)]
        exact ⟨rfl, kept⟩
  | queryHistory tagIndex startTimeMs endTimeMs maxResults =>
      exact ⟨congrArg ScadaAnswer.points (kept.query tagIndex startTimeMs endTimeMs maxResults),
        kept⟩

theorem scadaCall_simulates :
    Simulates scadaCall (fun recorder call answer next => recorderCall recorder call = (next, answer))
      (Kept : ScadaCollector K → Recorder K → Prop) := by
  intro collector recorder call kept
  obtain ⟨answer, next⟩ := kept.call call
  exact ⟨(recorderCall recorder call).1, Prod.ext rfl answer.symm, next⟩

omit [IsStrictOrderedRing K] in
theorem kept_init : Kept scadaInitCollector (⟨[], [], false⟩ : Recorder K) :=
  ⟨.nil, rfl, rfl, rfl, rfl⟩

end Calls

/-! ### Times -/

/-- The time of a call that polls. -/
def ScadaCall.time {K : Type*} : ScadaCall K → Option Nat
  | .pollTag _ now | .pollAllTags now => some now.toNat
  | _ => none

/-- Until the times are too long for 32 bits, the scans are the scan rate apart. -/
structure Paced {K : Type*} (clock : Nat) (record : TagRecord K) : Prop where
  apart : record.scans.IsChain fun last now =>
    last + record.scanRateMs.toNat ≤ now ∨ 2 ^ 32 ≤ last
  past : ∀ scan ∈ record.scans, scan ≤ clock

section Times

variable {K : Type*} {record : TagRecord K} {clock now : Nat}

theorem Paced.lastScan_le (paced : Paced clock record) : record.lastScan ≤ clock := by
  rw [TagRecord.lastScan, List.getLastD_eq_getLast?]
  cases last : record.scans.getLast? with
  | none => exact Nat.zero_le _
  | some scan => exact paced.past scan (List.mem_of_getLast? last)

theorem Paced.later (paced : Paced clock record) (later : clock ≤ now) : Paced now record :=
  ⟨paced.apart, fun scan member => (paced.past scan member).trans later⟩

/-- As long as the clock does not go back, what is lost of the last scan's time matters only once
it is lost. -/
theorem due_iff_of_le (forward : record.lastScan ≤ now) : record.due now ↔
    record.lastScan + record.scanRateMs.toNat ≤ now ∨ 2 ^ 32 ≤ record.lastScan := by
  have rate := record.scanRateMs.toNat_lt
  rw [TagRecord.due]
  omega

theorem Paced.scan (paced : Paced clock record) (forward : clock ≤ now) (due : record.due now) :
    Paced now (record.scan now) := by
  constructor
  case apart =>
    rw [TagRecord.scan, List.isChain_append]
    refine ⟨paced.apart, List.isChain_singleton now, ?_⟩
    intro last isLast first isFirst
    obtain rfl : now = first := Option.some.inj isFirst
    have same : record.lastScan = last := by
      rw [TagRecord.lastScan, List.getLastD_eq_getLast?, Option.mem_def.mp isLast]
      rfl
    have next := (due_iff_of_le (paced.lastScan_le.trans forward)).mp due
    rwa [same] at next
  case past =>
    intro scan member
    rcases List.mem_append.mp member with earlier | new
    · exact (paced.past scan earlier).trans forward
    · exact (List.mem_singleton.mp new).le

theorem forall_mem_modify {α : Type*} {property : α → Prop} {items : List α} {f : α → α}
    {index : Nat} (all : ∀ item ∈ items, property item)
    (kept : ∀ item, items[index]? = some item → property item → property (f item)) :
    ∀ item ∈ items.modify index f, property item := by
  intro item member
  obtain ⟨i, isItem⟩ := List.mem_iff_getElem?.mp member
  rw [List.getElem?_modify] at isItem
  obtain ⟨before, isBefore, rfl⟩ := Option.map_eq_some_iff.mp isItem
  have holds := all before (List.mem_of_getElem? isBefore)
  split_ifs with same
  · exact kept before (same ▸ isBefore) holds
  · exact holds

variable [Field K] [LinearOrder K] {recorder : Recorder K}

theorem paced_poll {now : UInt64} (paced : ∀ record ∈ recorder.tags, Paced clock record)
    (forward : clock ≤ now.toNat) (tagIndex : Nat) :
    ∀ record ∈ (recorder.poll tagIndex now).tags, Paced now.toNat record := by
  have later : ∀ record ∈ recorder.tags, Paced now.toNat record :=
    fun record member => (paced record member).later forward
  rw [Recorder.poll]
  split
  · exact later
  · rename_i record isRecord
    split_ifs with scanned
    · apply forall_mem_modify later
      intro item isItem paced
      obtain rfl := Option.some.inj (isRecord.symm.trans isItem)
      exact paced.scan (Nat.le_refl _) scanned.2
    · exact later

theorem paced_polls {now : UInt64} (indices : List Nat)
    (paced : ∀ record ∈ recorder.tags, Paced now.toNat record) :
    ∀ record ∈ (indices.foldl (fun recorder i => recorder.poll i now) recorder).tags,
      Paced now.toNat record := by
  induction indices generalizing recorder with
  | nil => exact paced
  | cons i indices ih => exact ih (paced_poll paced (Nat.le_refl _) i)

omit [Field K] [LinearOrder K] in
theorem paced_change (paced : ∀ record ∈ recorder.tags, Paced clock record) (tagIndex : Nat)
    {change : ScadaTagSettings K → ScadaTagSettings K}
    (rate : ∀ settings, (change settings).scanRateMs = settings.scanRateMs) :
    ∀ record ∈ (recorder.change tagIndex change).tags, Paced clock record := by
  apply forall_mem_modify paced
  intro record _ paced
  constructor
  case apart =>
    dsimp only
    rw [rate]
    exact paced.apart
  case past => exact paced.past

theorem paced_call (paced : ∀ record ∈ recorder.tags, Paced clock record) (call : ScadaCall K)
    (forward : ∀ now ∈ call.time, clock ≤ now) :
    ∀ record ∈ (recorderCall recorder call).1.tags, Paced (call.time.getD clock) record := by
  cases call with
  | addTag scanRateMs =>
      rw [recorderCall]
      split_ifs
      · intro record member
        rcases List.mem_append.mp member with earlier | new
        · exact paced record earlier
        · obtain rfl := List.mem_singleton.mp new
          exact ⟨.nil, fun scan member => absurd member List.not_mem_nil⟩
      · exact paced
  | removeTag tagIndex =>
      intro record member
      exact paced record (List.mem_of_mem_eraseIdx member)
  | setTagScale tagIndex scale offset => exact paced_change paced tagIndex fun _ => rfl
  | setTagDeadband tagIndex deadband =>
      apply paced_change paced
      intro settings
      rw [scadaSetTagDeadband]
      split_ifs <;> rfl
  | setTag tagIndex quality enabled archiving => exact paced_change paced tagIndex fun _ => rfl
  | setCollecting collecting => exact paced
  | readTag tagIndex => exact paced
  | writeTagValue tagIndex value =>
      exact forall_mem_modify paced fun _ _ paced => ⟨paced.apart, paced.past⟩
  | pollTag tagIndex now => exact paced_poll paced (forward _ rfl) tagIndex
  | pollAllTags now =>
      have later : ∀ record ∈ recorder.tags, Paced now.toNat record :=
        fun record member => (paced record member).later (forward _ rfl)
      rw [recorderCall]
      dsimp only
      split_ifs
      · exact paced_polls (List.range recorder.tags.length) later
      · exact later
  | storeHistoryPoint tagIndex value quality timestamp =>
      rw [recorderCall]
      split_ifs <;> exact paced
  | queryHistory tagIndex startTimeMs endTimeMs maxResults => exact paced

/-- A clock that never goes back. -/
theorem paced_run (calls : List (ScadaCall K))
    (paced : ∀ record ∈ recorder.tags, Paced clock record)
    (ordered : (clock :: calls.filterMap ScadaCall.time).Pairwise (· ≤ ·))
    (last : ∀ time ∈ clock :: calls.filterMap ScadaCall.time, time ≤ now) :
    ∀ record ∈ (run recorderCall recorder calls).1.tags, Paced now record := by
  induction calls generalizing recorder clock with
  | nil => exact fun record member => (paced record member).later (last clock List.mem_cons_self)
  | cons call calls ih =>
      cases isTime : call.time with
      | none =>
          have step := paced_call paced call (by simp [isTime])
          rw [isTime] at step
          rw [List.filterMap_cons_none isTime] at ordered last
          exact ih step ordered last
      | some time =>
          rw [List.filterMap_cons_some isTime] at ordered last
          obtain ⟨first, rest⟩ := List.pairwise_cons.mp ordered
          have step := paced_call paced call (by
            intro other isOther
            obtain rfl := Option.some.inj (isTime.symm.trans isOther)
            exact first _ List.mem_cons_self)
          rw [isTime] at step
          exact ih step rest fun other member => last other (List.mem_cons_of_mem _ member)

end Times

/-- Every answer of the collector over a run (how many tags there are, what is accepted, what a
tag reads, what a query finds) is the recorder's: a query finds the first points asked for among
the first 10000 reports, and a poll reports what was written since the last scan if the last
write changed it by more than the deadband.  Unless the clock goes back, the scans of a tag are
its scan rate apart until they are later than 32 bits, and from then on every poll is a scan. -/
theorem scadaHistory_records {K : Type*} [Field K] [LinearOrder K] [IsStrictOrderedRing K]
    (calls : List (ScadaCall K)) :
    (run scadaCall scadaInitCollector calls).2 = (run recorderCall ⟨[], [], false⟩ calls).2 ∧
      ((calls.filterMap ScadaCall.time).Pairwise (· ≤ ·) →
        ∀ record ∈ (run recorderCall ⟨[], [], false⟩ calls).1.tags,
          record.scans.IsChain (fun last now =>
            last + record.scanRateMs.toNat ≤ now ∨ 2 ^ 32 ≤ last) ∧
          ∀ now, (∀ time ∈ calls.filterMap ScadaCall.time, time ≤ now) →
            (record.due now ↔ record.lastScan + record.scanRateMs.toNat ≤ now ∨
              2 ^ 32 ≤ record.lastScan)) := by
  constructor
  · obtain ⟨last, permits, -⟩ := scadaCall_simulates.run (kept_init : Kept _ (⟨[], [], false⟩ : Recorder K)) calls
    rw [permits_run permits]
  · intro ordered record member
    have pacedAt : ∀ now, (∀ time ∈ calls.filterMap ScadaCall.time, time ≤ now) →
        Paced now record := by
      intro now last
      have start : (0 :: calls.filterMap ScadaCall.time).Pairwise (· ≤ ·) :=
        List.pairwise_cons.mpr ⟨fun _ _ => Nat.zero_le _, ordered⟩
      apply paced_run calls (fun _ none => absurd none List.not_mem_nil) start _ record member
      intro time inside
      rcases List.mem_cons.mp inside with rfl | later
      · exact Nat.zero_le _
      · exact last time later
    constructor
    · apply (pacedAt (calls.filterMap ScadaCall.time).sum _).apart
      exact fun time inside => List.le_sum_of_mem inside
    · intro now last
      exact due_iff_of_le (pacedAt now last).lastScan_le

/-- A write, a scan of all tags, and a query that finds it. -/
theorem scadaHistory_records_one :
    (run scadaCall (scadaInitCollector : ScadaCollector ℚ) [.addTag 500, .setCollecting true,
      .writeTagValue 0 3, .pollAllTags 1000, .queryHistory 0 0 2000 5]).2 =
      [.numTags 1, .done, .accepted true, .done, .points [⟨1000, 3, 0, 0⟩]] :=
  (scadaHistory_records [.addTag 500, .setCollecting true, .writeTagValue 0 3, .pollAllTags 1000,
    .queryHistory 0 0 2000 5]).1.trans (by decide +kernel)

end ScadaHistory

end Control

end MiniIotRobotEdge
