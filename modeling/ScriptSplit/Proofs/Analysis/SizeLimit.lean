import Mathlib
import ScriptSplit.Proofs.Analysis.Transparency

/-!
# The size limit

The size of a file is asked for before it is read, if the source tells sizes, and its content is measured
after it was read; the cache is asked in between, before the encoding is looked at. What becomes of a file
is decided by its content and the limit alone.

* `Source.TellsSize`, `Analyzer.unsized`: a source that tells true sizes, and the same files without them.
* `Analyzer.analyzeFile_unsized`: the sizes change nothing, neither the answer nor what a file leaves behind.
* `Analyzer.Decided`: what the content of a file and the limit say about its answer.
* `Analyzer.answerAs_decided`: they decide it when no cache is asked.
* **`Analyzer.analyzeFile_decided`**: they decide it whatever genuine entries a cache holds.
-/

namespace ScriptSplit

open Batch Cache

/-! ## Sources that tell sizes -/

namespace Source

/-- The size of a file is told exactly if the file can be read, and it is the length of its content. -/
def TellsSize (source : Source) (path : String) : Prop :=
  ∀ size, source.size? path = some size ↔ ∃ t, source.read path = .ok t ∧ t.length = size

/-- The same files, whose sizes are not told. -/
def unsized (source : Source) : Source := { source with size? := fun _ => none }

theorem tellsSize_ofTexts (texts : List (String × Bytes)) (path : String) : (ofTexts texts).TellsSize path := by
  intro size
  change (texts.lookup path).map List.length = some size ↔ ∃ t, (ofTexts texts).read path = .ok t ∧ t.length = size
  unfold ofTexts
  cases hlookup : texts.lookup path with
  | none => simp [hlookup]
  | some t => simp [hlookup]

end Source

namespace Analyzer

/-- The analyzer over the same files, whose sizes are not told. -/
def unsized (a : Analyzer) : Analyzer := { a with source := a.source.unsized }

/-- There is a limit, and the content is longer. -/
def TooLong (a : Analyzer) (t : Bytes) : Prop :=
  0 < a.config.scan.maxFileSize ∧ a.config.scan.maxFileSize < t.length

theorem exceeds_iff {a : Analyzer} {t : Bytes} : exceeds a.config t.length = true ↔ a.TooLong t := by
  simp [exceeds, TooLong]

/-- The content of a file whose size is not told, or why there is none. -/
theorem content_of_unsized (a : Analyzer) (path : String) : a.unsized.content path = match a.source.read path with
    | .error (.failed e) => .error (.failed (.read e))
    | .error (.crashed reason) => .error (.crashed reason)
    | .ok t => if exceeds a.config t.length then .error (.failed (.tooLarge t.length a.config.scan.maxFileSize))
      else .ok t := rfl

/-- A content within the limit is what is read. -/
theorem read_of_content {a : Analyzer} {path : String} {t : Bytes} (h : a.content path = .ok t) :
    a.source.read path = .ok t := by
  have hunsized : a.unsized.content path = .ok t := by
    unfold content at h
    cases hsize : a.source.size? path with
    | none =>
      rw [hsize] at h
      exact h
    | some size =>
      rw [hsize] at h
      dsimp only at h
      split_ifs at h
      exact h
  rw [content_of_unsized] at hunsized
  split at hunsized
  · cases hunsized
  · cases hunsized
  case h_3 t' hread =>
    split_ifs at hunsized
    cases hunsized
    exact hread

section Content

variable {a : Analyzer} {path : String} (h : a.source.TellsSize path)
include h

/-- Where sizes are told, a file is refused before it is read exactly if it would be refused afterwards. -/
theorem content_unsized : a.unsized.content path = a.content path := by
  unfold content unsized Source.unsized
  cases hsize : a.source.size? path with
  | none => rfl
  | some size =>
    obtain ⟨t, hread, rfl⟩ := (h size).mp hsize
    simp only [hread]
    split <;> rfl

/-- **The sizes change nothing**: neither the answer for a file nor the disk and the events that it leaves. -/
theorem analyzeFile_unsized (display : String) (s : RunState) :
    a.unsized.analyzeFile display path s = a.analyzeFile display path s := by
  unfold analyzeFile
  rw [content_unsized h]
  rfl

end Content

/-! ## What decides -/

/-- The content is UTF-8. -/
def IsText (t : Bytes) : Prop := ∃ s : String, Bytes.ofString s = t

/-- The answer is an error that becomes a warning of the kind. -/
def Fails (answer : Except (JobError FileError) FileResult) (kind : WarningKind) : Prop :=
  ∃ e, answer = .error e ∧ warningKind e = kind

/-- The content of a file and the limit decide over its answer. -/
structure Decided (a : Analyzer) (display path : String) (answer : Except (JobError FileError) FileResult) :
    Prop where
  tooLarge_iff : Fails answer .tooLarge ↔ ∃ t, a.source.read path = .ok t ∧ a.TooLong t
  read_iff : Fails answer .read ↔ ∃ e, a.source.read path = .error (.failed e)
  encoding_iff : Fails answer .encoding ↔
    ∃ t, a.source.read path = .ok t ∧ ¬ a.TooLong t ∧ ¬ IsText t
  report_iff : (∃ r, answer = .ok r) ↔
    ∃ t, a.source.read path = .ok t ∧ ¬ a.TooLong t ∧ IsText t
  /-- Any other answer is that of a source which stopped abruptly. -/
  crashed_iff : ∀ reason, answer = .error (.crashed reason) ↔ a.source.read path = .error (.crashed reason)
  /-- The error tells the length and the limit. -/
  tooLarge : ∀ t, a.source.read path = .ok t → a.TooLong t →
    answer = .error (.failed (.tooLarge t.length a.config.scan.maxFileSize))
  /-- The error tells why reading failed. -/
  read : ∀ e, a.source.read path = .error (.failed e) → answer = .error (.failed (.read e))
  /-- The error tells the name. -/
  encoding : Fails answer .encoding → answer = .error (.failed (.encoding ⟨display⟩))
  /-- The report is that of the content. -/
  report : ∀ t r, a.source.read path = .ok t → answer = .ok r → r = resultOf a.config display t

section Answer

variable {a : Analyzer} {path : String} (h : a.source.TellsSize path) (display : String)
include h

/-- What is read, and the answer to it. -/
theorem answerAs_cases :
    (∃ e, a.source.read path = .error (.failed e) ∧ a.answerAs display path = .error (.failed (.read e))) ∨
    (∃ reason, a.source.read path = .error (.crashed reason) ∧
      a.answerAs display path = .error (.crashed reason)) ∨
    ∃ t, a.source.read path = .ok t ∧
      ((a.TooLong t ∧ a.answerAs display path =
          .error (.failed (.tooLarge t.length a.config.scan.maxFileSize))) ∨
        (¬ a.TooLong t ∧ ¬ IsText t ∧ a.answerAs display path = .error (.failed (.encoding ⟨display⟩))) ∨
        (¬ a.TooLong t ∧ IsText t ∧ a.answerAs display path = .ok (resultOf a.config display t))) := by
  have hanswer : a.answerAs display path = (a.content path).bind fun t =>
      if Utf8.isValid t then .ok (resultOf a.config display t) else .error (.failed (.encoding ⟨display⟩)) := by
    unfold answerAs analyze
    cases a.content path with
    | error e => rfl
    | ok t => cases hvalid : Utf8.isValid t <;> simp [hvalid, Except.bind]
  rw [hanswer, ← content_unsized h, content_of_unsized]
  cases a.source.read path with
  | error e =>
    cases e with
    | failed e => exact .inl ⟨e, rfl, rfl⟩
    | crashed reason => exact .inr (.inl ⟨reason, rfl, rfl⟩)
  | ok t =>
    refine .inr (.inr ⟨t, rfl, ?_⟩)
    by_cases hlong : a.TooLong t
    · exact .inl ⟨hlong, by simp [exceeds_iff.mpr hlong, Except.bind]⟩
    have hwithin : exceeds a.config t.length = false := Bool.eq_false_iff.mpr fun h => hlong (exceeds_iff.mp h)
    by_cases hvalid : Utf8.isValid t = true
    · exact .inr (.inr ⟨hlong, Utf8.isValid_iff.mp hvalid, by simp [hwithin, hvalid, Except.bind]⟩)
    · exact .inr (.inl ⟨hlong, fun hs => hvalid (Utf8.isValid_iff.mpr hs), by simp [hwithin, hvalid, Except.bind]⟩)

/-- **The content and the limit decide** when no cache is asked. -/
theorem answerAs_decided : a.Decided display path (a.answerAs display path) := by
  rcases answerAs_cases h display with ⟨e, hread, hanswer⟩ | ⟨reason, hread, hanswer⟩ |
    ⟨t, hread, ⟨hlong, hanswer⟩ | ⟨hlong, hvalid, hanswer⟩ | ⟨hlong, hvalid, hanswer⟩⟩
  all_goals
    rw [hanswer]
    constructor <;> simp_all [Fails, warningKind]

end Answer

/-- **The content and the limit decide** what becomes of a file: it is too large, unreadable, not UTF-8 or has
the report of its content, whatever genuine entries the cache holds, and whether or not sizes are told. -/
theorem analyzeFile_decided {settings : Set Config} {contents : Set Bytes} (hash : NoCollision settings contents)
    (a : Analyzer) (hcfg : a.config ∈ settings) (display path : String) (hsize : a.source.TellsSize path)
    (hcontents : ∀ t, a.source.read path = .ok t → t ∈ contents) (s : RunState)
    (hs : a.cache.enabled = true → Genuine settings contents a.cache.dir s.disk) :
    a.unsized.analyzeFile display path s = a.analyzeFile display path s ∧
      a.Decided display path (a.analyzeFile display path s).1 := by
  refine ⟨analyzeFile_unsized hsize display s, ?_⟩
  have hanswer : (a.analyzeFile display path s).1 = a.answerAs display path := by
    by_cases henabled : a.cache.enabled = true
    · exact (analyzeFile_transparent hash (fun _ => rfl) hcfg (fun t ht => hcontents t (read_of_content ht))
        (hs henabled)).1
    · exact analyzeFile_off (Bool.eq_false_iff.mpr henabled) display path s
  rw [hanswer]
  exact answerAs_decided hsize display

/-- Three bytes are allowed, and a file has three. -/
def atLimit : Analyzer where
  config := { Config.spare 0 with scan := { Config.default.scan with maxFileSize := 3 } }
  source := Source.ofTexts [("a.js", Bytes.ofString "f()")]
  cache := ⟨true, "/c", 24⟩

/-- What the first analysis of the file leaves. -/
def afterFirst : RunState := (atLimit.analyzeFile "a.js" "a.js" ⟨emptyCacheDisk, 0, []⟩).2

theorem genuine_afterFirst (hash : NoCollision {atLimit.config} {Bytes.ofString "f()"}) :
    Genuine {atLimit.config} {Bytes.ofString "f()"} "/c" afterFirst.disk := by
  have hcontents : ∀ t, atLimit.content "a.js" = .ok t → t ∈ ({Bytes.ofString "f()"} : Set Bytes) := by
    intro t ht
    cases read_of_content ht
    rfl
  have hboth : (atLimit.analyzeFile "a.js" "a.js" ⟨emptyCacheDisk, 0, []⟩).1 = atLimit.answerAs "a.js" "a.js" ∧
      Genuine {atLimit.config} {Bytes.ofString "f()"} "/c"
        (atLimit.analyzeFile "a.js" "a.js" ⟨emptyCacheDisk, 0, []⟩).2.disk :=
    analyzeFile_transparent hash (fun _ => rfl) (Set.mem_singleton _) hcontents
      fun raw hold => absurd hold (not_holds_emptyCacheDisk raw)
  -- by its equation, so that the analysis is not run
  have hafter : afterFirst = (atLimit.analyzeFile "a.js" "a.js" ⟨emptyCacheDisk, 0, []⟩).2 := by rw [afterFirst]
  rw [hafter]
  exact hboth.2

theorem analyzeFile_decided_atLimit : ∃ (settings : Set Config) (contents : Set Bytes),
    NoCollision settings contents ∧ atLimit.config ∈ settings ∧ atLimit.source.TellsSize "a.js" ∧
    Genuine settings contents "/c" afterFirst.disk ∧
    atLimit.unsized.analyzeFile "a.js" "a.js" afterFirst = atLimit.analyzeFile "a.js" "a.js" afterFirst ∧
    atLimit.Decided "a.js" "a.js" (atLimit.analyzeFile "a.js" "a.js" afterFirst).1 := by
  have hash : NoCollision {atLimit.config} {Bytes.ofString "f()"} :=
    ⟨by rw [Set.image_singleton]; exact Set.injOn_singleton _ _, Set.injOn_singleton _ _⟩
  have hsize : atLimit.source.TellsSize "a.js" := Source.tellsSize_ofTexts _ _
  have hcontents : ∀ t, atLimit.source.read "a.js" = .ok t → t ∈ ({Bytes.ofString "f()"} : Set Bytes) := by
    intro t ht
    cases ht
    rfl
  have hgenuine := genuine_afterFirst hash
  exact ⟨_, _, hash, Set.mem_singleton _, hsize, hgenuine,
    analyzeFile_decided hash atLimit (Set.mem_singleton _) "a.js" "a.js" hsize hcontents afterFirst
      fun _ => hgenuine⟩

end Analyzer

end ScriptSplit
