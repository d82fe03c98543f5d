import Mathlib
import ScriptSplit.Proofs.Cache.Memory

/-!
# What a look-up finds

After any history of calls a look-up finds what was stored last under its key, if that came from the same
content and is not too old.

* `History`: calls one after the other on a cache in a directory without entries.
* **`lookup_after_run`**: what a look-up finds after any history of calls.
* `lookup_exceptions`: negative times to live, directories that are not removed, and data as deep as can be.
-/

namespace ScriptSplit.Cache

/-! ## Histories -/

/-- The calls are made one after the other, all before `now`, on a cache in a directory without entries, and
they are about keys that have different hashes. -/
structure History (c : Cache) (keys : Set String) (d : Disk) (calls : List (Int × Call)) (now : Int) : Prop where
  sited : Sited c keys d
  measurable : c.Measurable
  hashes : Set.InjOn Hash.Blake3.hex (Bytes.ofString '' keys)
  times : (calls.map Prod.fst ++ [now]).Pairwise (· ≤ ·)
  keys : ∀ call ∈ calls, ∀ key, call.2.key? = some key → key ∈ keys

namespace History

variable {c : Cache} {keys : Set String} {d : Disk} {calls : List (Int × Call)} {now : Int}
  (h : History c keys d calls now)
include h

theorem exists_start : ∃ start, (start :: (calls.map Prod.fst ++ [now])).Pairwise (· ≤ ·) := by
  have htimes := h.times
  cases hlist : calls.map Prod.fst ++ [now] with
  | nil => simp at hlist
  | cons time times =>
    rw [hlist] at htimes
    refine ⟨time, List.pairwise_cons.mpr ⟨fun t ht => ?_, htimes⟩⟩
    obtain rfl | ht := List.mem_cons.mp ht
    · exact le_rfl
    · exact (List.pairwise_cons.mp htimes).1 t ht

/-- **After a history** the files of the keys hold what was stored last. -/
theorem mirrors (henabled : c.enabled = true) :
    Mirrors c keys now (fun key => (c.run d calls).1.foldl (remember key) none) (c.run d calls).2 := by
  obtain ⟨start, htimes⟩ := h.exists_start
  exact (h.sited.mirrors start).run henabled h.measurable (entryName_injOn h.hashes) htimes h.keys

theorem gone_of_cleared (henabled : c.enabled = true)
    (hcleared : ∃ e ∈ (c.run d calls).1, e.call = .clear ∧ e.answer = .done) : Gone c keys (c.run d calls).2 := by
  obtain ⟨start, htimes⟩ := h.exists_start
  have hcalls : (start :: calls.map Prod.fst).Pairwise (· ≤ ·) :=
    htimes.sublist (List.Sublist.cons_cons start (List.sublist_append_left _ _))
  exact (h.sited.mirrors start).gone_of_cleared henabled h.measurable (entryName_injOn h.hashes) hcalls h.keys hcleared

end History

/-- A directory for entries, and another one of the same name beside the target of a link. -/
def twinDirectories : Disk :=
  ⟨.dir [("c", .dir []), ("link", .link "x/y"), ("x", .dir [("c", .dir []), ("y", .dir [])])], "/c"⟩

section Twin

variable {c : Cache} {path : String}

theorem home_twin {d : Disk} {top entries : List (String × Node)} (htop : d.root.at? [] = some (.dir top))
    (hdir : d.root.at? ["c"] = some (.dir entries)) (hsteps : d.dirSteps c.dir = ["", "c"]) :
    Home c d Disk.maxLinks ["c"] := by
  refine ⟨?_, entries, hdir⟩
  rw [hsteps]
  have hproper : Disk.Proper "c" := by
    unfold Disk.Proper
    decide
  exact .stay htop (.inl rfl) (.down hproper (Disk.solid_of_dir hdir) (.done _ _))

theorem at?_twin (key : String) : twinDirectories.root.at? (["c"] ++ [entryName key]) = none := by
  simp [twinDirectories, Node.at?, Node.child?, List.lookup]

theorem sited_twin (keys : Set String) (ttlHours : Int) : Sited ⟨true, "/c", ttlHours⟩ keys twinDirectories := by
  have hname : Path.EndsInName "/c" := by decide
  have hup : ".." ∉ Path.parts "/c" := by decide
  have hsteps : twinDirectories.dirSteps "/c" = ["", "c"] := by decide
  refine .of_not_up hname hup fun key _ place hplace => ?_
  have hhome : Home ⟨true, "/c", ttlHours⟩ twinDirectories Disk.maxLinks ["c"] := home_twin rfl rfl hsteps
  rw [hhome.place_missing (at?_twin key)] at hplace
  cases hplace

/-- Two keys, and a removal of all entries after them. -/
def twoStores : List (Int × Call) :=
  [(0, .store "k" [] (Bytes.ofString "1")), (1, .store "l" [] (Bytes.ofString "2")), (2, .clear)]

theorem history_twoStores : History ⟨true, "/c", 24⟩ {"k", "l"} twinDirectories twoStores 3 where
  sited := sited_twin _ _
  measurable := by decide
  hashes := by
    rw [Set.image_pair, Set.injOn_pair]
    exact fun h => absurd h (by decide +kernel)
  times := by decide
  keys := by simp [twoStores, Call.key?]

/-- The directory as it is written, as a point and upwards after a link. -/
theorem there_twin (hpath : path ∈ ["/c", ".", "/link/../c"]) : twinDirectories.dirSteps path = ["", "c"] ∧
    ∃ entries, twinDirectories.find .follow path = .ok (.dir entries) := by
  have hfind : ∀ steps place, path ≠ "" → twinDirectories.steps path = steps →
      Disk.walk twinDirectories.root .follow Disk.maxLinks [] steps = .ok place →
      twinDirectories.root.at? place = some (.dir []) →
      ∃ entries, twinDirectories.find .follow path = .ok (.dir entries) := by
    intro steps place hne hsteps hwalk hplace
    refine ⟨[], ?_⟩
    rw [Disk.find, Disk.place_eq_walk hne, hsteps, hwalk]
    simp [hplace]
  simp only [List.mem_cons, List.not_mem_nil, or_false] at hpath
  obtain rfl | rfl | rfl := hpath
  · exact ⟨by decide, hfind ["", "c"] ["c"] (by decide) (by decide) (by cbv) rfl⟩
  · exact ⟨by decide, hfind ["", "c", "."] ["c"] (by decide) (by decide) (by cbv) rfl⟩
  · exact ⟨by decide, hfind ["", "link", "..", "c"] ["x", "c"] (by decide) (by decide) (by cbv) rfl⟩

/-- What is stored there has its file in the first directory, and is found if it is current. -/
theorem stored_twin (hpath : c.dir ∈ ["/c", ".", "/link/../c"]) (henabled : c.enabled = true) (hage : c.Measurable)
    {s : Stored} {raw : Bytes} (htext : entryText? s.time "k" s.content s.data = some raw) :
    c.store twinDirectories s.time "k" s.content s.data = .ok (withEntry twinDirectories ["c"] "k" (some (.file raw))) ∧
    ∀ later content, s.time ≤ later →
      ((c.lookup (withEntry twinDirectories ["c"] "k" (some (.file raw))) later "k" content).1.isSome = true ↔
        s.Current c later content) := by
  obtain ⟨hsteps, hthere⟩ := there_twin hpath
  have hhome : Home c twinDirectories Disk.maxLinks ["c"] := home_twin rfl rfl hsteps
  exact hhome.stored hthere henabled hage (Node.atMostFile_of_none (at?_twin "k")) htext

/-- A number that is stored at the start of time. -/
def storedOne : Stored := ⟨0, [], Bytes.ofString "1"⟩

theorem exists_text_storedOne : ∃ raw, entryText? 0 "k" [] (Bytes.ofString "1") = some raw :=
  Option.isSome_iff_exists.mp (by decide)

theorem current_storedOne {now : Int} (hage : c.ttlHours ≤ 0) : storedOne.Current c now [] := by
  have hdepth : (Json.read? storedOne.data).map Json.depth = some 0 := by decide +kernel
  obtain ⟨j, hread, hj⟩ := Option.map_eq_some_iff.mp hdepth
  refine ⟨rfl, ⟨j, hread, ?_⟩, fun hexpired => absurd hexpired.1 (by omega)⟩
  rw [hj]
  decide

/-- With a negative time to live nothing is too old. -/
theorem lookup_negative : ∃ d', (⟨true, "/c", -1⟩ : Cache).store twinDirectories 0 "k" [] (Bytes.ofString "1") = .ok d' ∧
    ((⟨true, "/c", -1⟩ : Cache).lookup d' 7200000000000 "k" []).1.isSome = true := by
  have hage : (⟨true, "/c", -1⟩ : Cache).Measurable := by decide
  obtain ⟨raw, htext⟩ := exists_text_storedOne
  obtain ⟨hstore, hlookup⟩ := stored_twin (c := ⟨true, "/c", -1⟩) (s := storedOne) (by simp) rfl hage htext
  exact ⟨_, hstore, (hlookup 7200000000000 [] (by decide)).mpr (current_storedOne (by decide))⟩

/-- A directory that is a point is not removed, and what was stored is found after that. -/
theorem lookup_point : ∃ d', (⟨true, ".", 0⟩ : Cache).store twinDirectories 0 "k" [] (Bytes.ofString "1") = .ok d' ∧
    (⟨true, ".", 0⟩ : Cache).answer d' 1 .clear = (.failed "RemoveAll .: invalid argument", d') ∧
    ((⟨true, ".", 0⟩ : Cache).lookup d' 2 "k" []).1.isSome = true := by
  have hage : (⟨true, ".", 0⟩ : Cache).Measurable := by decide
  obtain ⟨raw, htext⟩ := exists_text_storedOne
  obtain ⟨hstore, hlookup⟩ := stored_twin (c := ⟨true, ".", 0⟩) (s := storedOne) (by simp) rfl hage htext
  exact ⟨_, hstore, rfl, (hlookup 2 [] (by decide)).mpr (current_storedOne le_rfl)⟩

/-- Upwards after a link another directory is removed than the one that entries are read from. -/
theorem lookup_upwards : ∃ d' d'',
    (⟨true, "/link/../c", 0⟩ : Cache).store twinDirectories 0 "k" [] (Bytes.ofString "1") = .ok d' ∧
    (⟨true, "/link/../c", 0⟩ : Cache).answer d' 1 .clear = (.done, d'') ∧
    ((⟨true, "/link/../c", 0⟩ : Cache).lookup d'' 2 "k" []).1.isSome = true := by
  have hage : (⟨true, "/link/../c", 0⟩ : Cache).Measurable := by decide
  obtain ⟨raw, htext⟩ := exists_text_storedOne
  obtain ⟨hstore, -⟩ := stored_twin (c := ⟨true, "/link/../c", 0⟩) (s := storedOne) (by simp) rfl hage htext
  obtain ⟨rest, hrest⟩ : ∃ rest : Disk, rest = ⟨.dir [("c", .dir [(entryName "k", .file raw)]),
    ("link", .link "x/y"), ("x", .dir [("y", .dir [])])], "/c"⟩ := ⟨_, rfl⟩
  have hclear : (⟨true, "/link/../c", 0⟩ : Cache).answer (withEntry twinDirectories ["c"] "k" (some (.file raw))) 1
      .clear = (.done, rest) := by
    have hplace : (withEntry twinDirectories ["c"] "k" (some (.file raw))).place .keep "/link/../c" = .ok ["x", "c"] := by
      have hsteps : twinDirectories.steps "/link/../c" = ["", "link", "..", "c"] := by decide
      change Disk.walk _ _ _ _ (twinDirectories.steps "/link/../c") = _
      rw [hsteps, withEntry]
      generalize entryName "k" = name
      cbv
    have hslashes : Path.withoutTrailingSlashes "/link/../c" = "/link/../c" := by decide
    have hpoint : Path.endsInPoint "/link/../c" = false := by decide
    simp only [answer, tryClear, Disk.tryRemoveAll, hpoint, hslashes, hplace, hrest]
    rfl
  refine ⟨_, rest, hstore, hclear, ?_⟩
  have htop : rest.root.at? ["c"] = some (.dir [(entryName "k", .file raw)]) := by rw [hrest]; rfl
  have hhome : Home ⟨true, "/link/../c", 0⟩ rest Disk.maxLinks ["c"] := by
    have hsteps : twinDirectories.dirSteps "/link/../c" = ["", "c"] := by decide
    refine home_twin (by rw [hrest]; rfl) htop ?_
    rw [hrest]
    exact hsteps
  have hkeeps : Keeps ⟨true, "/link/../c", 0⟩ 0 "k" (some storedOne) (rest.root.at? (["c"] ++ [entryName "k"])) :=
    .inl ⟨raw, htext, by rw [Node.at?_concat htop]; simp [List.lookup]⟩
  obtain ⟨s, u, -, -, -, heq⟩ | ⟨hnot, -⟩ := hhome.lookup_cases rfl hage hkeeps (show (0 : Int) ≤ 2 by decide) []
  · rw [heq]
    rfl
  · exact absurd (current_storedOne le_rfl) (hnot _ rfl)

/-- Arrays nested in each other. -/
def nested : Nat → Json
  | 0 => .array []
  | n + 1 => .array [nested n]

theorem readable_nested (n : Nat) : Json.Readable (n + 1) (nested n) := by
  induction n with
  | zero => simp [nested]
  | succ n ih => simpa [nested] using ih

theorem depth_nested (n : Nat) : (nested n).depth = n + 1 := by
  induction n with
  | zero => simp [nested, Json.depth, Json.depthOfItems]
  | succ n ih => simp [nested, Json.depth, Json.depthOfItems, ih]

theorem ascii_nested (n : Nat) : ∀ x ∈ (nested n).compact.toList, x.toNat < 128 := by
  induction n with
  | zero => simp [nested, Json.compact, Json.compactItems]
  | succ n ih =>
    intro x hx
    simp only [nested, Json.compact, Json.compactItems, String.intercalate_singleton, String.toList_append,
      List.mem_append] at hx
    obtain (hx | hx) | hx := hx
    · obtain rfl : x = '[' := by simpa using hx
      decide
    · exact ih x hx
    · obtain rfl : x = ']' := by simpa using hx
      decide

theorem compactBytes?_nested {n : Nat} (hn : n < Json.maxDepth) :
    (Json.compactBytes? (Bytes.ofString (nested n).compact)).isSome = true := by
  rw [Json.compactBytes?, Json.byteChars_ofString, Json.spreads_spread.flatMap_ascii (ascii_nested n),
    Json.readChars?_compact ((readable_nested n).mono hn)]
  rfl

/-- Data as deep as can be are stored, and never found: the object of the entry would be deeper. -/
theorem lookup_deep : ∃ n d', (nested n).depth = Json.maxDepth ∧
    (⟨true, "/c", 0⟩ : Cache).store twinDirectories 0 "k" [] (Bytes.ofString (nested n).compact) = .ok d' ∧
    ((⟨true, "/c", 0⟩ : Cache).lookup d' 0 "k" []).1 = none := by
  obtain ⟨n, hn⟩ : ∃ n, n + 1 = Json.maxDepth := ⟨9999, rfl⟩
  have hage : (⟨true, "/c", 0⟩ : Cache).Measurable := by decide
  obtain ⟨raw, htext⟩ : ∃ raw, entryText? 0 "k" [] (Bytes.ofString (nested n).compact) = some raw := by
    have hyears : Moment.ofNanos? 0 = some (Moment.ofNanos 0) := if_pos (by decide)
    obtain ⟨u, hu⟩ := Option.isSome_iff_exists.mp (compactBytes?_nested (Nat.lt_of_succ_le hn.le))
    simp [entryText?, hyears, Entry.bytes?, hu]
  obtain ⟨hstore, hlookup⟩ := stored_twin (c := ⟨true, "/c", 0⟩) (s := ⟨0, [], Bytes.ofString (nested n).compact⟩)
    (by simp) rfl hage htext
  refine ⟨n, _, (depth_nested n).trans hn, hstore, ?_⟩
  have hnot : ¬ (⟨0, [], Bytes.ofString (nested n).compact⟩ : Stored).Current ⟨true, "/c", 0⟩ 0 [] := by
    rintro ⟨-, ⟨j, hj, hdepth⟩, -⟩
    rw [Json.read?_compact ((readable_nested n).mono hn.le)] at hj
    rw [← Option.some.inj hj, depth_nested, hn] at hdepth
    exact lt_irrefl _ hdepth
  simpa [hnot] using hlookup 0 [] le_rfl

end Twin

end ScriptSplit.Cache
