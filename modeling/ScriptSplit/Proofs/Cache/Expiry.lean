import Mathlib
import ScriptSplit.Proofs.Cache.Lookup
import ScriptSplit.Proofs.Config.Overlay

/-!
# Times to live that wrap around

Settings give the time to live in hours, and any number from zero on passes their check. A cache counts it in
nanoseconds, in a word of 64 bits, and beyond 2562047 hours the number wraps around. Where it turns negative nothing
expires, as the settings say for every age that a word holds. Where it turns into a shorter time entries are lost.

* `measurable_iff_ttl_eq`: the time to live fits its word exactly if it is what the word holds.
* `expired_iff`: when the word says of an age what the hours say.
* `Matches`: the file of a key holds an entry for the content; `lookup_of_matches`: age alone decides about it.
* **`lookup_expiry`**: with valid settings an entry expires as the hours say, unless a shorter time is left.
* `lookup_lost`: an entry of an hour is lost with a time to live of more than five million.
-/

namespace ScriptSplit.Cache

/-! ## The time to live in its word -/

section Word

variable {c : Cache}

theorem measurable_iff : c.Measurable ↔
    Word64.least ≤ c.ttlHours * 3600000000000 ∧ c.ttlHours * 3600000000000 ≤ Word64.greatest := by
  rw [Measurable, Word64.fits, Bool.and_eq_true, decide_eq_true_eq, decide_eq_true_eq]

/-- The time to live fits its word exactly if it is what the word holds. -/
theorem measurable_iff_ttl_eq : c.Measurable ↔ c.ttl = c.ttlHours * 3600000000000 := by
  refine ⟨Measurable.ttl_eq, fun h => measurable_iff.mpr ?_⟩
  have hlow : -(Word64.count : Int) / 2 ≤ c.ttl := Int.le_bmod (by decide)
  have hhigh : c.ttl < (Word64.count + 1 : Int) / 2 := Int.bmod_lt (by decide)
  rw [h] at hlow hhigh
  simp only [Word64.count, Word64.least, Word64.greatest] at hlow hhigh ⊢
  omega

theorem measurable_iff_le (h : 0 ≤ c.ttlHours) : c.Measurable ↔ c.ttlHours ≤ 2562047 := by
  rw [measurable_iff, Word64.least, Word64.greatest]
  omega

/-- Where the number first wraps around it turns negative. -/
theorem ttl_nonpos (hlow : 2562047 < c.ttlHours) (hhigh : c.ttlHours ≤ 5124095) : c.ttl ≤ 0 := by
  have hmod : c.ttlHours * 3600000000000 % (Word64.count : Int) = c.ttlHours * 3600000000000 :=
    Int.emod_eq_of_lt (by omega) (by rw [Word64.count]; omega)
  rw [ttl, Word64.wrap, Int.bmod_def, hmod, if_neg (by rw [Word64.count]; omega), Word64.count]
  omega

/-- **Entries expire as the hours say** for an age that a word holds, unless a shorter time is left in the word. -/
theorem expired_iff (hhours : 0 ≤ c.ttlHours) {age : Int} (hage : age ≤ Word64.greatest) :
    ((0 < c.ttl ∧ c.ttl < age) ↔ c.Expired age) ↔
      c.ttl = c.ttlHours * 3600000000000 ∨ c.ttl ≤ 0 ∨ age ≤ c.ttl := by
  by_cases hfits : c.Measurable
  · have hexact := hfits.ttl_eq
    refine ⟨fun _ => .inl hexact, fun _ => ?_⟩
    rw [Expired, hexact]
    exact and_congr_left fun _ => by omega
  · -- no age that a word holds is beyond a time to live that no word holds
    have hfresh : ¬ c.Expired age := by
      rw [measurable_iff_le hhours] at hfits
      rintro ⟨-, hlt⟩
      rw [Word64.greatest] at hage
      omega
    have hwrapped : c.ttl ≠ c.ttlHours * 3600000000000 := mt measurable_iff_ttl_eq.mpr hfits
    simp only [hfresh, hwrapped, iff_false, false_or]
    omega

theorem isExpired_iff {now : Int} {timestamp : Moment} (hpast : 0 ≤ now - timestamp.nanos)
    (hspan : now - timestamp.nanos ≤ Word64.greatest) :
    c.isExpired now timestamp = true ↔ 0 < c.ttl ∧ c.ttl < now - timestamp.nanos := by
  have hexact : span timestamp.nanos now = now - timestamp.nanos := by
    simp only [span, Word64.clamp, Word64.least, Word64.greatest] at hspan ⊢
    omega
  rw [isExpired, hexact, Bool.and_eq_true, decide_eq_true_eq, decide_eq_true_eq]

end Word

/-! ## Entries that match -/

/-- The file of the key holds the entry, which is for the key and the content. -/
structure Matches (c : Cache) (d : Disk) (key : String) (content : Bytes) (e : Entry) : Prop where
  file : ∃ raw, d.read (c.keyPath key) = .ok raw ∧ Entry.ofBytes? raw = some e
  key : e.key = key
  hash : e.hash = Hash.Blake3.hex content

section Matching

variable {c : Cache} {d : Disk} {key : String} {content : Bytes} {e : Entry}

/-- Age alone decides about an entry that matches. -/
theorem lookup_of_matches (henabled : c.enabled = true) (h : c.Matches d key content e) (now : Int) :
    (c.lookup d now key content).1 = if c.isExpired now e.timestamp then none else some e.data := by
  obtain ⟨raw, hread, hentry⟩ := h.file
  unfold lookup
  rw [henabled, if_neg (by simp), hread]
  simp only [hentry]
  rw [if_neg (by simp [h.key, h.hash])]
  split_ifs <;> rfl

theorem lookup_eq_none_iff (henabled : c.enabled = true) (h : c.Matches d key content e) {now : Int}
    (hpast : 0 ≤ now - e.timestamp.nanos) (hspan : now - e.timestamp.nanos ≤ Word64.greatest) :
    (c.lookup d now key content).1 = none ↔ 0 < c.ttl ∧ c.ttl < now - e.timestamp.nanos := by
  rw [lookup_of_matches henabled h, ← isExpired_iff hpast hspan]
  cases c.isExpired now e.timestamp <;> simp

/-- What is stored has an entry that matches, of the moment at which it was stored. -/
theorem Home.exists_matches {left : Nat} {home : List String} (h : Home c d left home)
    (hthere : ∃ entries, d.find .follow c.dir = .ok (.dir entries)) (henabled : c.enabled = true)
    (hfile : d.root.AtMostFile (home ++ [entryName key])) {s : Stored} {raw : Bytes}
    (htext : entryText? s.time key s.content s.data = some raw)
    (hdepth : ∃ j, Json.read? s.data = some j ∧ j.depth < Json.maxDepth) :
    ∃ d' e, c.store d s.time key s.content s.data = .ok d' ∧ c.Matches d' key s.content e ∧
      e.timestamp.nanos = s.time := by
  have hstore := h.store_eq hthere henabled hfile s.time s.content s.data
  rw [htext] at hstore
  obtain ⟨hyears, j, u, hdata, -, hentry⟩ := exists_entry htext
  obtain ⟨j', hdata', hdepth⟩ := hdepth
  obtain rfl : j = j' := Option.some.inj (hdata.symm.trans hdata')
  rw [if_pos hdepth] at hentry
  obtain ⟨entries, hdir⟩ := h.dir
  exact ⟨_, _, hstore, ⟨⟨raw, (h.set hfile _).read_file (Node.at?_set_last hdir _ _), hentry⟩, rfl, rfl⟩,
    Moment.nanos_ofNanos hyears⟩

end Matching

/-! ## Expiry with valid settings -/

theorem create_eq_ok {before start : Disk} {dir : String} {ttlHours : Int} {c : Cache}
    (h : create before dir ttlHours = .ok (c, start)) : c = ⟨true, dir, ttlHours⟩ := by
  unfold create at h
  cases hmade : before.mkdirAll dir with
  | error e =>
    rw [hmade] at h
    cases h
  | ok made =>
    rw [hmade] at h
    cases h
    rfl

/-- **Entries expire** at the age that valid settings give, up to 5124095 hours. An entry that matches is found unless
it is older than the number in the word, where that is positive. This is what the settings say exactly if
the number did not wrap around, or is not positive, or is not below the age of the entry. -/
theorem lookup_expiry {cfg : Config} {c : Cache} {before start d : Disk} {key : String} {content : Bytes} {e : Entry}
    {now : Int} (hvalid : cfg.faults = []) (hcreate : create before cfg.cache.dir cfg.cache.ttl = .ok (c, start))
    (h : c.Matches d key content e) (hpast : 0 ≤ now - e.timestamp.nanos)
    (hspan : now - e.timestamp.nanos ≤ Word64.greatest) :
    ((c.lookup d now key content).1 =
      if 0 < c.ttl ∧ c.ttl < now - e.timestamp.nanos then none else some e.data) ∧
    (((c.lookup d now key content).1 = none ↔
        cfg.cache.ttl ≠ 0 ∧ cfg.cache.ttl * 3600000000000 < now - e.timestamp.nanos) ↔
      c.ttl = cfg.cache.ttl * 3600000000000 ∨ c.ttl ≤ 0 ∨ now - e.timestamp.nanos ≤ c.ttl) ∧
    (c.ttl = cfg.cache.ttl * 3600000000000 ↔ cfg.cache.ttl ≤ 2562047) ∧
    (cfg.cache.ttl ≤ 5124095 → ((c.lookup d now key content).1 = none ↔
      cfg.cache.ttl ≠ 0 ∧ cfg.cache.ttl * 3600000000000 < now - e.timestamp.nanos)) := by
  obtain ⟨henabled, hours⟩ : c.enabled = true ∧ c.ttlHours = cfg.cache.ttl := by
    rw [create_eq_ok hcreate]
    exact ⟨rfl, rfl⟩
  have hnonneg : 0 ≤ c.ttlHours := by
    have hcounts := Config.nonneg_of_faults hvalid
    simp only [countSettings, List.forall_mem_cons] at hcounts
    rw [hours]
    exact hcounts.2.2.2.2.2.1
  have hlookup := lookup_of_matches henabled h now
  rw [if_congr (isExpired_iff hpast hspan) rfl rfl] at hlookup
  have hnone := lookup_eq_none_iff henabled h hpast hspan
  have hexpired : c.Expired (now - e.timestamp.nanos) ↔
      cfg.cache.ttl ≠ 0 ∧ cfg.cache.ttl * 3600000000000 < now - e.timestamp.nanos := by
    rw [Expired, hours]
    exact and_congr_left fun _ => by omega
  have hexact := expired_iff hnonneg hspan
  rw [← hnone, hexpired, hours] at hexact
  have hfits : c.ttl = cfg.cache.ttl * 3600000000000 ↔ cfg.cache.ttl ≤ 2562047 := by
    rw [← hours, ← measurable_iff_ttl_eq, measurable_iff_le hnonneg]
  refine ⟨hlookup, hexact, hfits, fun hbound => hexact.mpr ?_⟩
  by_cases hlow : cfg.cache.ttl ≤ 2562047
  · exact .inl (hfits.mpr hlow)
  · exact .inr (.inl (ttl_nonpos (by omega) (by omega)))

/-! ## Entries on a small disk -/

/-- Settings with a directory for entries and a time to live. -/
def keptFor (ttlHours : Int) : Config := { Config.default with cache := ⟨true, "/c", ttlHours⟩ }

theorem create_twin (ttlHours : Int) :
    create twinDirectories "/c" ttlHours = .ok (⟨true, "/c", ttlHours⟩, twinDirectories) := by
  have hpath : "/c" ∈ ["/c", ".", "/link/../c"] := by simp
  obtain ⟨-, entries, hthere⟩ := there_twin hpath
  have hmade : twinDirectories.mkdirAll "/c" = .ok twinDirectories := by
    rw [Disk.mkdirAll, if_neg (by decide), hthere]
  rw [create, hmade]
  rfl

/-- A number is stored at the start of time. -/
theorem exists_matches_twin (ttlHours : Int) : ∃ d e,
    (⟨true, "/c", ttlHours⟩ : Cache).store twinDirectories 0 "k" [] (Bytes.ofString "1") = .ok d ∧
    (⟨true, "/c", ttlHours⟩ : Cache).Matches d "k" [] e ∧ e.timestamp.nanos = 0 := by
  have hpath : "/c" ∈ ["/c", ".", "/link/../c"] := by simp
  obtain ⟨hsteps, hthere⟩ := there_twin hpath
  have hhome : Home ⟨true, "/c", ttlHours⟩ twinDirectories Disk.maxLinks ["c"] := home_twin rfl rfl hsteps
  obtain ⟨raw, htext⟩ := exists_text_storedOne
  have hcurrent : storedOne.Current ⟨true, "/c", 0⟩ 0 [] := current_storedOne le_rfl
  exact hhome.exists_matches hthere rfl (Node.atMostFile_of_none (at?_twin "k")) htext hcurrent.depth

/-- With a time to live of a day an entry is found for a day, and not a nanosecond longer. -/
theorem lookup_expiry_day : ∃ c d e, (keptFor 24).faults = [] ∧
    create twinDirectories (keptFor 24).cache.dir (keptFor 24).cache.ttl = .ok (c, twinDirectories) ∧
    c.store twinDirectories 0 "k" [] (Bytes.ofString "1") = .ok d ∧ c.Matches d "k" [] e ∧
    (c.lookup d 86400000000000 "k" []).1 = some e.data ∧ (c.lookup d 86400000000001 "k" []).1 = none := by
  obtain ⟨d, e, hstore, hentry, htime⟩ := exists_matches_twin 24
  have hfaults : (keptFor 24).faults = [] := by decide +kernel
  have hcreate : create twinDirectories (keptFor 24).cache.dir (keptFor 24).cache.ttl =
      .ok (⟨true, "/c", 24⟩, twinDirectories) := create_twin 24
  have hages : ∀ now : Int, 0 ≤ now → now ≤ Word64.greatest →
      ((⟨true, "/c", 24⟩ : Cache).lookup d now "k" []).1 =
        if 0 < (⟨true, "/c", 24⟩ : Cache).ttl ∧ (⟨true, "/c", 24⟩ : Cache).ttl < now then none else some e.data := by
    intro now hpast hspan
    have hage : now - e.timestamp.nanos = now := by rw [htime, sub_zero]
    have hfound := (lookup_expiry hfaults hcreate hentry (by rwa [hage]) (by rwa [hage])).1
    rwa [hage] at hfound
  exact ⟨_, d, e, hfaults, hcreate, hstore, hentry, hages 86400000000000 (by decide) (by decide),
    hages 86400000000001 (by decide) (by decide)⟩

/-- **An entry of an hour is lost** with a time to live of 5124096 hours, which leaves 25 minutes in the word. -/
theorem lookup_lost : ∃ c d e, (keptFor 5124096).faults = [] ∧
    create twinDirectories (keptFor 5124096).cache.dir (keptFor 5124096).cache.ttl = .ok (c, twinDirectories) ∧
    c.store twinDirectories 0 "k" [] (Bytes.ofString "1") = .ok d ∧ c.Matches d "k" [] e ∧
    e.timestamp.nanos = 0 ∧ ¬ (keptFor 5124096).cache.ttl * 3600000000000 < 3600000000000 ∧
    (c.lookup d 3600000000000 "k" []).1 = none ∧ c.ttl = 1526290448384 := by
  obtain ⟨d, e, hstore, hentry, htime⟩ := exists_matches_twin 5124096
  have hwrapped : (⟨true, "/c", 5124096⟩ : Cache).ttl = 1526290448384 := by decide
  refine ⟨_, d, e, by decide +kernel, create_twin 5124096, hstore, hentry, htime, by decide, ?_, hwrapped⟩
  rw [lookup_eq_none_iff rfl hentry (by rw [htime]; decide) (by rw [htime]; decide), htime, hwrapped]
  decide

end ScriptSplit.Cache
