import Mathlib
import ScriptSplit.Analysis.CrossFile
import ScriptSplit.Analysis.File
import ScriptSplit.Proofs.Registry.Edges

/-!
# Calls within and between files

Every call site of a file leads to the calling function itself, to another function of its file, to a
function of another file, or nowhere. The registry of a file and the calls between files are found
apart from each other; together they account for each call site once.

* `CallFacts`: what the analysis of one file promises about its calls; `callFacts_of_analyze`.
* `mem_crossFileCalls`: the calls between files, one by one.
* `CallClass.Holds`: where a call site leads.
* `crossFileCalls_inOrder`: by file, by function and by callee.
* **`callSites_accounted`**: each call site is in one class, and there are no other calls.
-/

namespace ScriptSplit

open Script Dependencies

/-! ## One file -/

/-- What the analysis of a file promises about its calls. -/
structure CallFacts (r : FileResult) : Prop where
  names_nodup : (r.report.functions.items.map (·.name)).Nodup
  calls_strict : ∀ name, (r.callsOf name).Pairwise (· < ·)
  /-- Only a body that was found has call sites. -/
  resolved : ∀ f ∈ r.report.functions.items, ∀ callee ∈ r.callsOf f.name, f.resolved = true
  /-- The dependencies are the call sites of other names that the file defines. -/
  dependencies : ∀ f ∈ r.report.functions.items, ∀ callee,
    callee ∈ f.dependencies.items ↔
      callee ∈ r.callsOf f.name ∧ callee ≠ f.name ∧ r.defines callee = true

theorem defines_iff {r : FileResult} {name : String} :
    r.defines name = true ↔ name ∈ r.report.functions.items.map (·.name) := by
  simp [FileResult.defines]

section ResultOf

variable (cfg : Config) (path : String) (t : Bytes)

/-- The scored entries that the result for a text is made from. -/
def scoredOf : List Scored :=
  (Outline.ofText t).entries.map (score t cfg.symbols.globals.items cfg.symbols.platformAPI.items)

theorem functions_resultOf : (resultOf cfg path t).report.functions.items =
    (scoredOf cfg t).map (Scored.link (scoredOf cfg t)) := rfl

theorem scoredOf_nodup : ((scoredOf cfg t).map (·.function.name)).Nodup := by
  rw [scoredOf, names_scored]
  exact entries_nodup t

theorem names_resultOf : (resultOf cfg path t).report.functions.items.map (·.name) =
    (scoredOf cfg t).map (·.function.name) := by
  rw [functions_resultOf, List.map_map]
  rfl

theorem callsOf_resultOf (name : String) : (resultOf cfg path t).callsOf name =
    ((ofScored (scoredOf cfg t)).callSites.get? name).getD [] := by
  change ((Dict.get? ((ofScored (scoredOf cfg t)).callSites.map fun p => (p.1, some p.2)) name).getD
    none).getD [] = _
  rw [Dict.get?_map]
  cases (ofScored (scoredOf cfg t)).callSites.get? name with
  | none => rfl
  | some calls => rfl

theorem callsOf_resultOf_link {s : Scored} (hs : s ∈ scoredOf cfg t) :
    (resultOf cfg path t).callsOf s.function.name = s.calls.getD [] := by
  rw [callsOf_resultOf]
  cases hc : s.calls with
  | some calls =>
    rw [(get?_callSites_iff (scoredOf_nodup cfg t)).mpr ⟨s, hs, rfl, hc⟩]
  | none =>
    cases hg : (ofScored (scoredOf cfg t)).callSites.get? s.function.name with
    | none => rfl
    | some calls =>
      obtain ⟨s', hs', hname, hc'⟩ := (get?_callSites_iff (scoredOf_nodup cfg t)).mp hg
      rw [eq_of_name_eq (scoredOf_nodup cfg t) hs' hs hname, hc] at hc'
      exact absurd hc' (by simp)

theorem calls_score_strict (globals patterns : List String) (e : OutlineEntry) :
    ((score t globals patterns e).calls.getD []).Pairwise (· < ·) := by
  unfold score
  cases e.span with
  | error err => exact List.Pairwise.nil
  | ok span => exact sortedSet_strict _

theorem resolved_score {globals patterns : List String} {e : OutlineEntry} :
    (score t globals patterns e).function.resolved = Outline.isResolved e := by
  unfold score
  cases e.span with
  | error err => rfl
  | ok span => rfl

theorem callFacts_resultOf : CallFacts (resultOf cfg path t) where
  names_nodup := by
    rw [names_resultOf]
    exact scoredOf_nodup cfg t
  calls_strict name := by
    rw [callsOf_resultOf]
    cases hg : (ofScored (scoredOf cfg t)).callSites.get? name with
    | none => exact List.Pairwise.nil
    | some calls =>
      obtain ⟨s, hs, -, hc⟩ := (get?_callSites_iff (scoredOf_nodup cfg t)).mp hg
      obtain ⟨e, -, rfl⟩ := List.mem_map.mp hs
      have h := calls_score_strict t cfg.symbols.globals.items cfg.symbols.platformAPI.items e
      rwa [hc] at h
  resolved := by
    intro f hf callee hcallee
    obtain ⟨s, hs, rfl⟩ := List.mem_map.mp hf
    rw [link_name, callsOf_resultOf_link cfg path t hs] at hcallee
    obtain ⟨e, -, rfl⟩ := List.mem_map.mp hs
    obtain ⟨span, hspan, -⟩ := mem_calls_score.mp hcallee
    change (score t _ _ e).function.resolved = true
    rw [resolved_score, Outline.isResolved, hspan]
  dependencies := by
    intro f hf callee
    obtain ⟨s, hs, rfl⟩ := List.mem_map.mp hf
    rw [link_name, callsOf_resultOf_link cfg path t hs, defines_iff, names_resultOf,
      mem_dependencies_link, dependsOn_iff]
    constructor
    · rintro ⟨hreg, hne, hcall⟩
      exact ⟨hcall, Ne.symm hne, hreg⟩
    · rintro ⟨hcall, hne, hreg⟩
      exact ⟨hreg, Ne.symm hne, hcall⟩

/-- The call sites of a function whose body was found are those of its body. -/
theorem callsOf_resolved {f : Function} (hf : f ∈ (resultOf cfg path t).report.functions.items)
    (hr : f.resolved = true) : ∃ span, resolve t (Bytes.ofString f.name) = .ok span ∧
      (resultOf cfg path t).callsOf f.name = Script.callSites (span.body t) := by
  obtain ⟨s, hs, rfl⟩ := List.mem_map.mp hf
  rw [link_name, callsOf_resultOf_link cfg path t hs]
  obtain ⟨e, he, rfl⟩ := List.mem_map.mp hs
  obtain ⟨d, -, rfl⟩ := List.mem_map.mp he
  change (score t _ _ _).function.resolved = true at hr
  rw [resolved_score, Outline.isResolved] at hr
  rw [score_name]
  cases hspan : resolve t (Bytes.ofString d.name) with
  | error err =>
    rw [hspan] at hr
    exact absurd hr (by simp)
  | ok span => exact ⟨span, rfl, by simp [score]⟩

end ResultOf

theorem callFacts_of_analyze {cfg : Config} {path : String} {content : Bytes} {r : FileResult}
    (h : analyze cfg path content = .ok r) : CallFacts r := by
  rw [eq_resultOf_of_analyze h]
  exact callFacts_resultOf cfg path content

/-! ## The calls between files -/

/-- The first file that defines a name, and no file before it does. -/
theorem ownerOf?_eq_some_iff {results : List FileResult} {name file : String} :
    ownerOf? results name = some file ↔ ∃ before s after, results = before ++ s :: after ∧
      s.report.path = file ∧ s.defines name = true ∧ ∀ s' ∈ before, s'.defines name = false := by
  simp only [ownerOf?, Option.map_eq_some_iff, List.find?_eq_some_iff_append]
  constructor
  · rintro ⟨s, ⟨hdef, before, after, hsplit, hbefore⟩, hpath⟩
    exact ⟨before, s, after, hsplit, hpath, hdef, fun s' hs' => by simpa using hbefore s' hs'⟩
  · rintro ⟨before, s, after, hsplit, hpath, hdef, hbefore⟩
    exact ⟨s, ⟨hdef, before, after, hsplit, fun s' hs' => by simpa using hbefore s' hs'⟩, hpath⟩

theorem exists_owner_iff {results : List FileResult} {name : String} :
    (∃ file, ownerOf? results name = some file) ↔ ∃ s ∈ results, s.defines name = true := by
  rw [← Option.isSome_iff_exists, ownerOf?, Option.isSome_map, List.find?_isSome]

theorem mem_callsLeaving {results : List FileResult} {r : FileResult} {c : CrossFileCall} :
    c ∈ callsLeaving results r ↔ ∃ f ∈ r.report.functions.items, c.caller = f.name ∧
      c.callerFile = r.report.path ∧ c.callee ∈ r.callsOf f.name ∧ r.defines c.callee = false ∧
      ownerOf? results c.callee = some c.calleeFile := by
  simp only [callsLeaving, List.mem_flatMap, List.mem_filterMap]
  refine exists_congr fun f => and_congr Iff.rfl ?_
  constructor
  · rintro ⟨callee, hcall, h⟩
    split_ifs at h with hdef
    obtain ⟨file, howner, rfl⟩ := Option.map_eq_some_iff.mp h
    exact ⟨rfl, rfl, hcall, by simpa using hdef, howner⟩
  · obtain ⟨caller, callerFile, callee, calleeFile⟩ := c
    rintro ⟨rfl, rfl, hcall, hdef, howner⟩
    refine ⟨callee, hcall, ?_⟩
    rw [if_neg (by simp [hdef]), howner]
    rfl

theorem mem_crossFileCalls {results : List FileResult} {c : CrossFileCall} :
    c ∈ crossFileCalls results ↔ ∃ r ∈ results, ∃ f ∈ r.report.functions.items,
      c.caller = f.name ∧ c.callerFile = r.report.path ∧ c.callee ∈ r.callsOf f.name ∧
      r.defines c.callee = false ∧ ownerOf? results c.callee = some c.calleeFile := by
  simp only [crossFileCalls, List.mem_flatMap, mem_callsLeaving]

/-! ## Order -/

theorem findIdx_of_nodup {α : Type} (key : α → String) {l : List α} (h : (l.map key).Nodup)
    {i : Nat} (hi : i < l.length) : l.findIdx (fun x => key x == key l[i]) = i := by
  rw [List.findIdx_eq hi]
  refine ⟨by simp, fun j hj => ?_⟩
  have hne : key l[j] ≠ key l[i] := by
    have := (List.nodup_iff_pairwise_ne.mp h)
    rw [List.pairwise_map, List.pairwise_iff_getElem] at this
    exact this j i (by omega) hi hj
  simpa using hne

/-- In a list of distinct keys the places of the keys increase. -/
theorem pairwise_findIdx {α : Type} (key : α → String) {l : List α} (h : (l.map key).Nodup) :
    l.Pairwise fun a b =>
      l.findIdx (fun x => key x == key a) < l.findIdx fun x => key x == key b := by
  rw [List.pairwise_iff_getElem]
  intro i j hi hj hij
  rwa [findIdx_of_nodup key h hi, findIdx_of_nodup key h hj]

/-- The place of the calling file among the results. -/
def filePlace (results : List FileResult) (c : CrossFileCall) : Nat :=
  results.findIdx fun r => r.report.path == c.callerFile

/-- The place of the calling function in its file. -/
def functionPlace (results : List FileResult) (c : CrossFileCall) : Nat :=
  match results.find? fun r => r.report.path == c.callerFile with
  | some r => r.report.functions.items.findIdx fun f => f.name == c.caller
  | none => 0

/-- One call comes before another: by file, then by function, then by callee. -/
def ComesBefore (results : List FileResult) (c c' : CrossFileCall) : Prop :=
  Prod.Lex (· < ·) (Prod.Lex (· < ·) (· < ·))
    (filePlace results c, functionPlace results c, c.callee)
    (filePlace results c', functionPlace results c', c'.callee)

section Results

variable {results : List FileResult} (hfacts : ∀ r ∈ results, CallFacts r)
  (hpaths : (results.map (·.report.path)).Nodup)
include hpaths

theorem eq_of_path_eq {r s : FileResult} (hr : r ∈ results) (hs : s ∈ results)
    (h : r.report.path = s.report.path) : r = s := List.inj_on_of_nodup_map hpaths hr hs h

theorem functionPlace_eq {r : FileResult} (hr : r ∈ results) {c : CrossFileCall}
    (hc : c.callerFile = r.report.path) : functionPlace results c =
      r.report.functions.items.findIdx fun f => f.name == c.caller := by
  have hfind : results.find? (fun r => r.report.path == c.callerFile) = some r := by
    cases hf : results.find? (fun r => r.report.path == c.callerFile) with
    | none =>
      have := List.find?_eq_none.mp hf r hr
      simp [hc] at this
    | some s =>
      have hpath : s.report.path = r.report.path := by
        rw [← hc]
        simpa using List.find?_some hf
      rw [eq_of_path_eq hpaths (List.mem_of_find?_eq_some hf) hr hpath]
  unfold functionPlace
  rw [hfind]

include hfacts

theorem callsLeaving_inOrder {r : FileResult} (hr : r ∈ results) :
    (callsLeaving results r).Pairwise (ComesBefore results) := by
  have hplace : ∀ {c : CrossFileCall} {f : Function}, c.caller = f.name →
      c.callerFile = r.report.path → (filePlace results c, functionPlace results c, c.callee) =
        (results.findIdx (fun s => s.report.path == r.report.path),
          r.report.functions.items.findIdx (fun g => g.name == f.name), c.callee) := by
    intro c f hcaller hfile
    rw [functionPlace_eq hpaths hr hfile, hcaller, filePlace, hfile]
  have hmem : ∀ {f : Function} {c : CrossFileCall}, c ∈ ((r.callsOf f.name).filterMap fun callee =>
      if r.defines callee then none
      else (ownerOf? results callee).map fun file => ⟨f.name, r.report.path, callee, file⟩) →
      c.caller = f.name ∧ c.callerFile = r.report.path := by
    intro f c hc
    obtain ⟨callee, -, h⟩ := List.mem_filterMap.mp hc
    split_ifs at h
    obtain ⟨file, -, rfl⟩ := Option.map_eq_some_iff.mp h
    exact ⟨rfl, rfl⟩
  unfold callsLeaving
  rw [List.pairwise_flatMap]
  constructor
  · -- the callees of one function increase
    intro f _
    rw [List.pairwise_filterMap]
    refine ((hfacts r hr).calls_strict f.name).imp fun {x y} hxy c hc c' hc' => ?_
    split_ifs at hc hc'
    obtain ⟨file, -, rfl⟩ := Option.map_eq_some_iff.mp hc
    obtain ⟨file', -, rfl⟩ := Option.map_eq_some_iff.mp hc'
    unfold ComesBefore
    rw [hplace (f := f) rfl rfl, hplace (f := f) rfl rfl]
    exact Prod.Lex.right _ (Prod.Lex.right _ hxy)
  · -- the functions of one file stand in registry order
    refine (pairwise_findIdx (·.name) (hfacts r hr).names_nodup).imp fun {f g} hfg c hc c' hc' => ?_
    obtain ⟨h₁, h₂⟩ := hmem hc
    obtain ⟨h₁', h₂'⟩ := hmem hc'
    unfold ComesBefore
    rw [hplace h₁ h₂, hplace h₁' h₂']
    exact Prod.Lex.right _ (Prod.Lex.left _ _ hfg)

/-- **The calls between files are in order.** -/
theorem crossFileCalls_inOrder : (crossFileCalls results).Pairwise (ComesBefore results) := by
  unfold crossFileCalls
  rw [List.pairwise_flatMap]
  refine ⟨fun r hr => callsLeaving_inOrder hfacts hpaths hr, ?_⟩
  refine (pairwise_findIdx (·.report.path) hpaths).imp fun {r s} hrs c hc c' hc' => ?_
  obtain ⟨f, -, -, hfile, -⟩ := mem_callsLeaving.mp hc
  obtain ⟨f', -, -, hfile', -⟩ := mem_callsLeaving.mp hc'
  refine Prod.Lex.left _ _ ?_
  rw [filePlace, filePlace, hfile, hfile']
  exact hrs

theorem crossFileCalls_nodup : (crossFileCalls results).Nodup := by
  refine (crossFileCalls_inOrder hfacts hpaths).imp fun {c c'} h => ?_
  rintro rfl
  exact irrefl_of (Prod.Lex (· < ·) (Prod.Lex (· < ·) (· < ·))) _ h

omit hfacts in
/-- A call between files stays in no file: the callee is defined where its caller is not. -/
theorem calleeFile_ne_callerFile {c : CrossFileCall} (hc : c ∈ crossFileCalls results) :
    c.calleeFile ≠ c.callerFile := by
  obtain ⟨r, hr, f, -, -, hfile, -, hundef, howner⟩ := mem_crossFileCalls.mp hc
  obtain ⟨before, s, after, hsplit, hpath, hdef, -⟩ := ownerOf?_eq_some_iff.mp howner
  intro heq
  have hs : s ∈ results := by
    rw [hsplit]
    exact List.mem_append_right _ List.mem_cons_self
  rw [eq_of_path_eq hpaths hs hr (by rw [hpath, heq, hfile]), hundef] at hdef
  exact Bool.false_ne_true hdef

end Results

/-! ## Where a call site leads -/

/-- Where a call site of a function leads. -/
inductive CallClass where
  | itself
  | inside
  | across
  | nowhere
  deriving DecidableEq

/-- A call of `callee` in the body of the function `f` of the file `r` leads there: to `f`, to a
dependency of `f`, over one call between files, or to a name that no file defines. -/
def CallClass.Holds (results : List FileResult) (r : FileResult) (f : Function) (callee : String) :
    CallClass → Prop
  | itself => callee = f.name
  | inside => callee ∈ f.dependencies.items
  | across => (crossFileCalls results).countP
      (fun c => c.caller = f.name ∧ c.callerFile = r.report.path ∧ c.callee = callee) = 1
  | nowhere => ∀ s ∈ results, s.defines callee = false

section Classes

variable {results : List FileResult} (hfacts : ∀ r ∈ results, CallFacts r)
  (hpaths : (results.map (·.report.path)).Nodup)
  {r : FileResult} (hr : r ∈ results) {f : Function} (hf : f ∈ r.report.functions.items)
  {callee : String} (hcall : callee ∈ r.callsOf f.name)
include hf

theorem defines_name : r.defines f.name = true :=
  defines_iff.mpr (List.mem_map_of_mem hf)

include hfacts hpaths hr hcall

/-- A call leaves its file once when another file defines the name, and else not at all. -/
theorem holds_across_iff : CallClass.Holds results r f callee .across ↔
    r.defines callee = false ∧ ∃ s ∈ results, s.defines callee = true := by
  classical
  rw [← exists_owner_iff]
  constructor
  · intro hone
    obtain ⟨c, hc, hp⟩ := List.countP_pos_iff.mp (hone ▸ Nat.one_pos)
    obtain ⟨-, hfile, rfl⟩ := of_decide_eq_true hp
    obtain ⟨r', hr', -, -, -, hfile', -, hundef, howner⟩ := mem_crossFileCalls.mp hc
    rw [eq_of_path_eq hpaths hr' hr (hfile'.symm.trans hfile)] at hundef
    exact ⟨hundef, c.calleeFile, howner⟩
  · rintro ⟨hundef, file, howner⟩
    let c₀ : CrossFileCall := ⟨f.name, r.report.path, callee, file⟩
    have hmem : c₀ ∈ crossFileCalls results :=
      mem_crossFileCalls.mpr ⟨r, hr, f, hf, rfl, rfl, hcall, hundef, howner⟩
    -- the owner is a function of the callee, so the three fields determine the entry
    have honly : ∀ c ∈ crossFileCalls results,
        (c.caller = f.name ∧ c.callerFile = r.report.path ∧ c.callee = callee) ↔ c = c₀ := by
      intro c hc
      obtain ⟨-, -, -, -, -, -, -, -, howner'⟩ := mem_crossFileCalls.mp hc
      constructor
      · obtain ⟨caller, callerFile, callee', calleeFile⟩ := c
        rintro ⟨rfl, rfl, rfl⟩
        rw [howner] at howner'
        cases howner'
        rfl
      · rintro rfl
        exact ⟨rfl, rfl, rfl⟩
    have hcount : (crossFileCalls results).count c₀ = 1 :=
      List.count_eq_one_of_mem (crossFileCalls_nodup hfacts hpaths) hmem
    rw [List.count] at hcount
    refine Eq.trans (List.countP_congr fun c hc => ?_) hcount
    rw [decide_eq_true_iff, honly c hc, beq_iff_eq]

omit hpaths in
theorem holds_inside_iff : CallClass.Holds results r f callee .inside ↔
    callee ≠ f.name ∧ r.defines callee = true := by
  unfold CallClass.Holds
  rw [(hfacts r hr).dependencies f hf]
  exact ⟨fun h => h.2, fun h => ⟨hcall, h⟩⟩

/-- **Each call site is in one class.** -/
theorem exists_unique_class : ∃! k : CallClass, k.Holds results r f callee := by
  have hacross := holds_across_iff hfacts hpaths hr hf hcall
  have hinside := holds_inside_iff hfacts hr hf hcall
  have hname := defines_name hf
  by_cases hself : callee = f.name
  · refine ⟨.itself, hself, ?_⟩
    rintro (_ | _ | _ | _) hk
    · rfl
    · exact absurd hself (hinside.mp hk).1
    · rw [hacross, hself, hname] at hk
      exact absurd hk.1 (by simp)
    · have := hk r hr
      rw [hself, hname] at this
      exact absurd this (by simp)
  by_cases hdef : r.defines callee = true
  · refine ⟨.inside, hinside.mpr ⟨hself, hdef⟩, ?_⟩
    rintro (_ | _ | _ | _) hk
    · exact absurd hk hself
    · rfl
    · rw [hacross, hdef] at hk
      exact absurd hk.1 (by simp)
    · have := hk r hr
      rw [hdef] at this
      exact absurd this (by simp)
  by_cases howner : ∃ s ∈ results, s.defines callee = true
  · refine ⟨.across, hacross.mpr ⟨by simpa using hdef, howner⟩, ?_⟩
    rintro (_ | _ | _ | _) hk
    · exact absurd hk hself
    · exact absurd (hinside.mp hk).2 hdef
    · rfl
    · obtain ⟨s, hs, hsdef⟩ := howner
      have := hk s hs
      rw [hsdef] at this
      exact absurd this (by simp)
  · refine ⟨.nowhere, fun s hs => ?_, ?_⟩
    · by_contra hsdef
      exact howner ⟨s, hs, by simpa using hsdef⟩
    · rintro (_ | _ | _ | _) hk
      · exact absurd hk hself
      · exact absurd (hinside.mp hk).2 hdef
      · exact absurd (hacross.mp hk).2 howner
      · rfl

end Classes

/-! ## The account -/

/-- What the call sites of a list of files and the calls between them have to do with each other. -/
structure CallsAccounted (results : List FileResult) : Prop where
  /-- The call sites of a resolved function are those of its body, each in one class. -/
  sites : ∀ r ∈ results, ∀ cfg path content, analyze cfg path content = .ok r →
    ∀ f ∈ r.report.functions.items, f.resolved = true →
      ∃ span, resolve content (Bytes.ofString f.name) = .ok span ∧
        r.callsOf f.name = Script.callSites (span.body content) ∧
        ∀ callee ∈ r.callsOf f.name, ∃! k : CallClass, k.Holds results r f callee
  /-- Every call between files is a call site that leads across. -/
  calls : ∀ c ∈ crossFileCalls results, ∃ r ∈ results, ∃ f ∈ r.report.functions.items,
    f.resolved = true ∧ c.caller = f.name ∧ c.callerFile = r.report.path ∧
      c.callee ∈ r.callsOf f.name ∧ CallClass.across.Holds results r f c.callee
  nodup : (crossFileCalls results).Nodup
  /-- The first file that defines a name owns it. -/
  owner : ∀ c ∈ crossFileCalls results, ∃ before s after, results = before ++ s :: after ∧
    s.report.path = c.calleeFile ∧ s.defines c.callee = true ∧
      ∀ s' ∈ before, s'.defines c.callee = false
  leaves : ∀ c ∈ crossFileCalls results, c.calleeFile ≠ c.callerFile
  inOrder : (crossFileCalls results).Pairwise (ComesBefore results)

/-- **Call sites are accounted for.** In the analyses of files with distinct paths, each call site of
a resolved function leads to exactly one place, and the calls between files are those that lead
across, each once and in order. -/
theorem callSites_accounted (results : List FileResult)
    (hres : ∀ r ∈ results, ∃ cfg path content, analyze cfg path content = .ok r)
    (hpaths : (results.map (·.report.path)).Nodup) : CallsAccounted results := by
  have hfacts : ∀ r ∈ results, CallFacts r := by
    intro r hr
    obtain ⟨cfg, path, content, h⟩ := hres r hr
    exact callFacts_of_analyze h
  refine ⟨?_, ?_, crossFileCalls_nodup hfacts hpaths, ?_,
    fun c hc => calleeFile_ne_callerFile hpaths hc, crossFileCalls_inOrder hfacts hpaths⟩
  · intro r hr cfg path content h f hf hresolved
    obtain ⟨span, hspan, hcalls⟩ : ∃ span, resolve content (Bytes.ofString f.name) = .ok span ∧
        r.callsOf f.name = Script.callSites (span.body content) := by
      rw [eq_resultOf_of_analyze h] at hf ⊢
      exact callsOf_resolved cfg path content hf hresolved
    exact ⟨span, hspan, hcalls, fun callee hcall => exists_unique_class hfacts hpaths hr hf hcall⟩
  · intro c hc
    obtain ⟨r, hr, f, hf, hcaller, hfile, hcall, hundef, howner⟩ := mem_crossFileCalls.mp hc
    refine ⟨r, hr, f, hf, (hfacts r hr).resolved f hf _ hcall, hcaller, hfile, hcall, ?_⟩
    exact (holds_across_iff hfacts hpaths hr hf hcall).mpr
      ⟨hundef, exists_owner_iff.mp ⟨_, howner⟩⟩
  · intro c hc
    obtain ⟨-, -, -, -, -, -, -, -, howner⟩ := mem_crossFileCalls.mp hc
    exact ownerOf?_eq_some_iff.mp howner

/-- Two files that call each other. -/
def mutualFiles : List FileResult :=
  [resultOf Config.default "a.js" (Bytes.ofString "function f(){g();h();f();}"),
   resultOf Config.default "b.js" (Bytes.ofString "function g(){f();}")]

theorem callSites_accounted_mutualFiles : CallsAccounted mutualFiles ∧
    crossFileCalls mutualFiles = [⟨"f", "a.js", "g", "b.js"⟩, ⟨"g", "b.js", "f", "a.js"⟩] := by
  refine ⟨callSites_accounted mutualFiles ?_ (by decide), by decide +kernel⟩
  intro r hr
  simp only [mutualFiles, List.mem_cons, List.not_mem_nil, or_false] at hr
  obtain rfl | rfl := hr
  · exact ⟨_, _, _, if_pos (by decide +kernel)⟩
  · exact ⟨_, _, _, if_pos (by decide +kernel)⟩

end ScriptSplit
