import ResourceNames.Proofs.Directory.DistinctTypes
import ResourceNames.Proofs.Verdict.Agreement

/-!
# Verdicts while directories are loaded

A verdict takes up to three look-ups. Each of them reads the index that is published at the time,
and loads and reloads may publish another one in between.

* `run_readInput`, `fst_run_judge`: which index each part of a verdict comes from.
* `torn_iff`: when a verdict is not that of any index that was published during the call.
* `exists_lost_of_reload`: a reload can come between the look-up of a type and the check.
-/

namespace ResourceNames

/-- A static directory in which one call looks things up while others load and reload. -/
structure SharedDirectory where
  directory : StaticDirectory
  /-- What is done to the directory before each look-up of the call, and after the last one. -/
  coming : List (List StaticDirectory.Step) := []

namespace SharedDirectory

variable {α : Type}

/-- The directory as the next look-up of the call finds it. -/
def next (s : SharedDirectory) : SharedDirectory :=
  match s.coming with
  | [] => s
  | steps :: rest => ⟨steps.foldl StaticDirectory.Step.apply s.directory, rest⟩

/-- A look-up reads one index. -/
def answer (ask : StaticDirectory → Except DirectoryError α) : Lookup SharedDirectory α := do
  modify next
  liftExcept (ask (← get).directory)

instance : TypeDirectory SharedDirectory where
  getType key := answer fun d => d.getType key
  validateValue key value := answer fun d => d.validateValue key value
  getUrnTemplate name version := answer fun d => d.getUrnTemplate name version
  listTypes := answer fun d => .ok d.index.types.sortedTypes

theorem next_nil (d : StaticDirectory) : (⟨d, []⟩ : SharedDirectory).next = ⟨d, []⟩ := rfl

theorem next_cons (d : StaticDirectory) (steps : List StaticDirectory.Step)
    (rest : List (List StaticDirectory.Step)) :
    (⟨d, steps :: rest⟩ : SharedDirectory).next =
      ⟨steps.foldl StaticDirectory.Step.apply d, rest⟩ := rfl

theorem run_answer (ask : StaticDirectory → Except DirectoryError α) (s : SharedDirectory) :
    (answer ask).run.run s = (ask s.next.directory, s.next) :=
  Lookup.run_liftExcept (ask s.next.directory) s.next

/-! ## Published directories -/

/-- The directory at some time before everything that is to come has been done. -/
def Publishes (s : SharedDirectory) (d : StaticDirectory) : Prop :=
  ∃ done, done <+: s.coming.flatten ∧ done.foldl StaticDirectory.Step.apply s.directory = d

variable {s : SharedDirectory} {d : StaticDirectory}

theorem publishes_directory (s : SharedDirectory) : s.Publishes s.directory :=
  ⟨[], List.nil_prefix, rfl⟩

theorem Publishes.of_next (h : s.next.Publishes d) : s.Publishes d := by
  obtain ⟨done, hdone, hd⟩ := h
  unfold next at hdone hd
  unfold Publishes
  cases hcoming : s.coming with
  | nil =>
    rw [hcoming] at hdone hd
    exact ⟨done, hcoming ▸ hdone, hd⟩
  | cons steps rest =>
    rw [hcoming] at hdone hd
    refine ⟨steps ++ done, ?_, ?_⟩
    · rw [List.flatten_cons]
      exact (List.prefix_append_right_inj steps).2 hdone
    · rw [List.foldl_append]
      exact hd

theorem publishes_next (s : SharedDirectory) : s.Publishes s.next.directory :=
  s.next.publishes_directory.of_next

/-! ## Reading and judging -/

/-- Only a URN takes a look-up to be read, and it is read by the index that this finds. -/
theorem run_readInput (s : SharedDirectory) (input : String) :
    (readInput input "" : StateM SharedDirectory _).run s =
      (s.next.directory.readInput input,
        if (soughtKey? input "").isSome then s.next else s) := by
  have htemplate : ∀ name version,
      (TypeDirectory.getUrnTemplate name version : Lookup SharedDirectory _).run.run s =
        (s.next.directory.getUrnTemplate name version, s.next) :=
    fun name version => run_answer (fun d => d.getUrnTemplate name version) s
  rw [TypeDirectory.run_readInput, TypeDirectory.run_readUrn]
  unfold StaticDirectory.readInput StaticDirectory.readUrn soughtKey?
  cases Format.detect input with
  | error e => rfl
  | ok format =>
    cases format with
    | fieldList => rfl
    | urn =>
      cases Urn.parseTypeKey input with
      | error e => rfl
      | ok key =>
        simp only [htemplate, if_true]
        cases s.next.directory.getUrnTemplate (splitTypeKey key).1 (splitTypeKey key).2 <;> rfl

/-- What is read is judged by what the next look-ups find. -/
theorem fst_run_validate (s : SharedDirectory) (input : String) :
    ((validate input : StateM SharedDirectory _).run s).1 =
      match s.next.directory.readInput input with
      | .error verdict => verdict
      | .ok r =>
        ((judge r : StateM SharedDirectory _).run
          (if (soughtKey? input "").isSome then s.next else s)).1 := by
  unfold validate
  rw [TypeDirectory.run_validateWithTemplate, run_readInput]
  cases s.next.directory.readInput input <;> rfl

theorem fst_run_validate_of_ok {s : SharedDirectory} {input : String} {r : Resource}
    (h : s.next.directory.readInput input = .ok r) :
    ((validate input : StateM SharedDirectory _).run s).1 =
      ((judge r : StateM SharedDirectory _).run
        (if (soughtKey? input "").isSome then s.next else s)).1 := by
  rw [fst_run_validate, h]

/-- The verdict on a resource whose type is dropped after it was found. -/
def lostVerdict (r : Resource) : Verdict :=
  (Verdict.rejected .unsupportedType (DirectoryError.notFound r.typeKey).message).withParsed r

/-- A resource is judged by the index in which its type was looked up last, unless the type is found
first and then no longer there. -/
theorem fst_run_judge (s : SharedDirectory) (r : Resource) :
    ((judge r : StateM SharedDirectory _).run s).1 =
      match s.next.directory.getType r.typeKey, s.next.next.directory.getType r.typeKey with
      | .error _, _ => s.next.directory.judge r
      | .ok _, .ok _ => s.next.next.directory.judge r
      | .ok _, .error _ => lostVerdict r := by
  have hget : (TypeDirectory.getType r.typeKey : Lookup SharedDirectory _).run.run s =
      (s.next.directory.getType r.typeKey, s.next) :=
    run_answer (fun d => d.getType r.typeKey) s
  have hcheck : (TypeDirectory.validateValue r.typeKey r : Lookup SharedDirectory _).run.run
      s.next = (s.next.next.directory.validateValue r.typeKey r, s.next.next) :=
    run_answer (fun d => d.validateValue r.typeKey r) s.next
  rw [TypeDirectory.run_judge, hget]
  cases hfound : s.next.directory.getType r.typeKey with
  | error e =>
    simp only [StaticDirectory.judge, hfound]
  | ok t =>
    simp only [hcheck]
    cases hkept : s.next.next.directory.getType r.typeKey with
    | ok t' =>
      simp only [StaticDirectory.judge, hkept]
      cases s.next.next.directory.validateValue r.typeKey r <;> rfl
    | error e =>
      obtain rfl := StaticDirectory.eq_notFound_of_getType hkept
      simp only [StaticDirectory.validateValue, hkept]
      rfl

/-- A single index words it differently that a type is not known. -/
theorem judge_ne_lostVerdict (d : StaticDirectory) (r : Resource) : d.judge r ≠ lostVerdict r := by
  intro h
  have hmiss : d.index.types.find? r.typeKey = none :=
    StaticDirectory.reason_judge_eq_iff.1 (by rw [h]; rfl)
  have hjudge : d.judge r =
      (Verdict.ofLookupFailure r.typeKey (.notFound r.typeKey)).withParsed r := by
    simp only [StaticDirectory.judge, StaticDirectory.getType, hmiss]
  have herrors : [s!"unsupported resource type '{r.typeKey}'"] =
      [(DirectoryError.notFound r.typeKey).message] :=
    congrArg Verdict.errors (hjudge.symm.trans h)
  -- The texts have different first letters.
  have hleft : (s!"unsupported resource type '{r.typeKey}'").toList.head? = some 'u' := by
    show ("unsupported resource type '" ++ r.typeKey ++ "'").toList.head? = _
    simp [String.toList_append]
  have hright : (DirectoryError.notFound r.typeKey).message.toList.head? = some 'r' := by
    show ("resource type '" ++ r.typeKey ++ "' not found").toList.head? = _
    simp [String.toList_append]
  rw [List.singleton_inj.1 herrors, hright] at hleft
  cases hleft

/-! ## Verdicts -/

/-- How a verdict comes to be that of no single index. -/
inductive Torn (s : SharedDirectory) (input : String) (verdict : Verdict) : Prop
  /-- One index reads the input and another one judges the resource, and none does both so. -/
  | mixed {first last : StaticDirectory} {r : Resource} : s.Publishes first → s.Publishes last →
    first.readInput input = .ok r → last.judge r = verdict →
    (∀ d, s.Publishes d → d.readInput input = .ok r → d.judge r ≠ verdict) →
    Torn s input verdict
  /-- The type of the resource is found, and dropped before the resource is checked. -/
  | lost {first found dropped : StaticDirectory} {r : Resource} {t : TypeDescriptor} :
    s.Publishes first → s.Publishes found → s.Publishes dropped →
    first.readInput input = .ok r → found.getType r.typeKey = .ok t →
    dropped.getType r.typeKey = .error (.notFound r.typeKey) → lostVerdict r = verdict →
    Torn s input verdict

/-- A torn verdict is that of no published index. -/
theorem Torn.ne_validate {input : String} {verdict : Verdict} (h : s.Torn input verdict)
    (hd : s.Publishes d) : d.validate input ≠ verdict := by
  intro hsame
  have hjudged : ∀ {r}, verdict.parsed = some r →
      d.readInput input = .ok r ∧ d.judge r = verdict := by
    intro r hparsed
    rw [← hsame] at hparsed
    have hread := StaticDirectory.parsed_validate_eq_some_iff.1 hparsed
    rw [StaticDirectory.validate_eq, hread] at hsame
    exact ⟨hread, hsame⟩
  cases h with
  | @mixed first last r _ _ _ hlast hno =>
    obtain ⟨hread, hjudge⟩ := hjudged (hlast ▸ last.parsed_judge r)
    exact hno d hd hread hjudge
  | @lost _ _ _ r _ _ _ _ _ _ _ hlost =>
    have hparsed : verdict.parsed = some r := by
      rw [← hlost]
      rfl
    obtain ⟨-, hjudge⟩ := hjudged hparsed
    exact judge_ne_lostVerdict d r (hjudge.trans hlost.symm)

/-- A verdict that is not torn is that of a published index. -/
theorem exists_publishes_or_torn (s : SharedDirectory) (input : String) :
    let verdict := ((validate input : StateM SharedDirectory _).run s).1
    (∃ d, s.Publishes d ∧ d.validate input = verdict) ∨ s.Torn input verdict := by
  intro verdict
  refine or_iff_not_imp_left.2 fun hnone => ?_
  have hfirst := s.publishes_next
  cases hr : s.next.directory.readInput input with
  | error rejected =>
    refine absurd ⟨_, hfirst, ?_⟩ hnone
    rw [StaticDirectory.validate_eq, hr]
    show rejected = verdict
    rw [show verdict = _ from s.fst_run_validate input, hr]
  | ok r =>
    have hverdict : verdict = _ := fst_run_validate_of_ok hr
    generalize hs' : (if (soughtKey? input "").isSome then s.next else s) = s' at hverdict
    have hpublishes : ∀ {d}, s'.Publishes d → s.Publishes d := by
      intro d hd
      subst hs'
      split at hd
      · exact hd.of_next
      · exact hd
    have hjudge := hverdict.trans (s'.fst_run_judge r)
    have hfound := hpublishes s'.publishes_next
    have hlast := hpublishes s'.next.publishes_next.of_next
    -- An index that reads and judges like this would give the verdict.
    have hno : ∀ d, s.Publishes d → d.readInput input = .ok r → d.judge r ≠ verdict := by
      intro d hd hread' hsame
      refine hnone ⟨d, hd, ?_⟩
      rw [StaticDirectory.validate_eq, hread']
      exact hsame
    split at hjudge
    · exact .mixed hfirst hfound hr hjudge.symm hno
    · exact .mixed hfirst hlast hr hjudge.symm hno
    · rename_i hknown hdropped
      rw [StaticDirectory.eq_notFound_of_getType hdropped] at hdropped
      exact .lost hfirst hfound hlast hr hknown hdropped hjudge.symm

/-- **Verdicts and publications.** The verdict of a call is that of a single index that is published
during the call, unless one index reads the input and another judges the resource or the type is
dropped in between, and then it is that of none. -/
theorem torn_iff (s : SharedDirectory) (input : String) :
    let verdict := ((validate input : StateM SharedDirectory _).run s).1
    (¬ ∃ d, s.Publishes d ∧ d.validate input = verdict) ↔ s.Torn input verdict := by
  intro verdict
  refine ⟨fun hnone => (s.exists_publishes_or_torn input).resolve_left hnone, ?_⟩
  rintro htorn ⟨d, hd, hsame⟩
  exact htorn.ne_validate hd hsame

/-- Whatever a directory reads and knows, the verdict on it is lost if what is done to the directory
drops the type at the wrong time. -/
theorem exists_lost {input : String} {r : Resource} {t : TypeDescriptor}
    {steps : List StaticDirectory.Step} (hread : d.readInput input = .ok r)
    (hfound : d.getType r.typeKey = .ok t)
    (hdropped : (steps.foldl StaticDirectory.Step.apply d).getType r.typeKey =
      .error (.notFound r.typeKey)) :
    ∃ coming : List (List StaticDirectory.Step), coming.flatten = steps ∧
      ((validate input : StateM SharedDirectory _).run ⟨d, coming⟩).1 = lostVerdict r := by
  -- The steps come before the look-up for the check, which is the second or the third one.
  cases hsought : (soughtKey? input "").isSome with
  | true =>
    refine ⟨[[], [], steps], by simp, ?_⟩
    rw [fst_run_validate_of_ok (by rw [next_cons]; exact hread), hsought, if_pos rfl,
      fst_run_judge, next_cons, next_cons, next_cons]
    simp only [List.foldl_nil, hfound, hdropped]
  | false =>
    refine ⟨[[], steps], by simp, ?_⟩
    rw [fst_run_validate_of_ok (by rw [next_cons]; exact hread), hsought,
      if_neg Bool.false_ne_true, fst_run_judge, next_cons, next_cons]
    simp only [List.foldl_nil, hfound, hdropped]

/-- It is so if a reload finds none of the sources any more. -/
theorem exists_lost_of_reload {authority input : String} {steps : List StaticDirectory.Step}
    {order : TypeIndex.IterationOrder} {fs : Files.FileSystem} {r : Resource} {t : TypeDescriptor}
    (hread : (StaticDirectory.run authority steps order).readInput input = .ok r)
    (hfound : (StaticDirectory.run authority steps order).getType r.typeKey = .ok t)
    (hgone : (StaticDirectory.run authority steps order).index.sources.filterMap
      (reading? authority fs) = []) :
    ∃ coming : List (List StaticDirectory.Step), coming.flatten = [.reload fs] ∧
      ((validate input : StateM SharedDirectory _).run
        ⟨StaticDirectory.run authority steps order, coming⟩).1 = lostVerdict r := by
  refine exists_lost hread hfound ?_
  rw [List.foldl_cons, List.foldl_nil, ← StaticDirectory.run_concat]
  have hmiss : (StaticDirectory.run authority (steps ++ [.reload fs]) order).index.types.find?
      r.typeKey = none := by
    unfold TypeIndex.find?
    rw [(StaticDirectory.holds_run_reload authority steps fs).types, hgone]
    rfl
  simp only [StaticDirectory.getType, hmiss]

/-- The file is deleted and the directory reloaded between the last two look-ups. -/
example :
    let d : StaticDirectory :=
      { authority := "g"
        index :=
          { types := TypeIndex.insert {}
              (StaticDirectory.sampleType "v" (.obj []) StaticDirectory.sampleTemplate)
            sources := [.pattern "a.yaml"] } }
    let verdict := ((validate "urn:ccrn:t.g/v/x/y" : StateM SharedDirectory _).run
      ⟨d, [[], [], [.reload {}]]⟩).1
    verdict.parsed.map lostVerdict = some verdict := by decide +kernel

end SharedDirectory

/-! ## A definition that is replaced -/

namespace StaticDirectory

open Files

/-- A definition of a type that has one field in its URNs, and requires it. -/
def requiringLines (field : Char) : List (List Char) :=
  ["kind: CustomResourceDefinition".toList, "metadata:".toList, " annotations:".toList,
    "  ccrn/v.urn-template: urn:ccrn:<ccrn>/<".toList ++ [field, '>'], "spec:".toList,
    " group: g".toList, " names: {kind: t}".toList, " versions:".toList, " - name: v".toList,
    "   served: true".toList, "   schema:".toList, "    openAPIV3Schema:".toList,
    "     required: [".toList ++ [field, ']']]

def requiringChars (field : Char) : List Char :=
  (requiringLines field).flatMap fun line => line ++ ['\n']

def requiringText (field : Char) : String := String.ofList (requiringChars field)

def requiringTemplate (field : Char) : String :=
  String.ofList ("urn:ccrn:<ccrn>/<".toList ++ [field, '>'])

def requiringType (field : Char) : TypeDescriptor :=
  sampleType "v" (.obj [("required", .arr [.str (String.ofList [field])])])
    (requiringTemplate field)

/-- One definition after the other in the same file. -/
def requiringLoads (fields : List Char) : List (FileSystem × Source) :=
  fields.map fun field => (singleFile (requiringText field), .pattern "a.yaml")

/-- The directory after these loads. -/
def requiring (fields : List Char) : StaticDirectory := run "g" (loadSteps (requiringLoads fields))

theorem reading?_requiring {field : Char} (h : field = 'a' ∨ field = 'b') :
    reading? "g" (singleFile (requiringText field)) (.pattern "a.yaml") =
      some [requiringType field] := by
  have hfiles : (Source.pattern "a.yaml").files (singleFile (requiringText field)) =
      .ok ["a.yaml"] := by
    rcases h with rfl | rfl <;> exact eq_ok_of_toOption (by decide +kernel)
  have hsplit : splitDocuments (requiringText field) = [(0, requiringText field)] := by
    rcases h with rfl | rfl <;>
      exact splitDocuments_of_lines (by decide +kernel) (by decide +kernel) (by decide +kernel)
  have hdocument : Batch.readDocument "g" (requiringText field) =
      .ok (.types [requiringType field]) := by
    refine eq_ok_of_toOption ?_
    rw [requiringText, Batch.readDocument, Yaml.parse?, Yaml.Document.ofText?, Yaml.Token.ofText?,
      String.toList_ofList]
    rcases h with rfl | rfl <;> decide +kernel
  exact reading?_of_document hfiles (read_single _) hsplit hdocument

theorem readings_requiring {fields : List Char} (h : ∀ field ∈ fields, field = 'a' ∨ field = 'b') :
    readings "g" (loadSteps (requiringLoads fields)) =
      fields.map fun field => [requiringType field] := by
  rw [readings_loadSteps, requiringLoads, List.filterMap_map, ← List.filterMap_eq_map]
  exact List.filterMap_congr fun field hfield => reading?_requiring (h field hfield)

theorem latest_requiring {fields : List Char} {field : Char}
    (h : fields.getLast? = some field) :
    latest "t.g/v" (fields.map fun field => [requiringType field]) = [requiringType field] := by
  obtain ⟨before, rfl⟩ := List.getLast?_eq_some_iff.1 h
  have hkey : (requiringType field).typeKey = "t.g/v" := by
    show (sampleType "v" .null "").typeKey = _
    decide +kernel
  rw [List.map_append, List.map_singleton, latest_concat, ← hkey, ofKey_self]
  rfl

/-- The resource that the URN stands for by one of the definitions. -/
def requiringResource (field : Char) : Resource :=
  ⟨.urn, (Table.empty.insert "ccrn" "t.g/v").insert (String.ofList [field]) "x",
    "urn:ccrn:t.g/v/x", requiringTemplate field⟩

theorem typeKey_requiring {field : Char} (h : field = 'a' ∨ field = 'b') :
    (requiringResource field).typeKey = "t.g/v" := by
  rcases h with rfl | rfl <;> decide +kernel

section

variable {fields : List Char} {field : Char} (h : ∀ f ∈ fields, f = 'a' ∨ f = 'b')
  (hlast : fields.getLast? = some field)

include h hlast

theorem find?_types_requiring :
    (requiring fields).index.types.find? "t.g/v" = some (requiringType field) := by
  unfold TypeIndex.find? requiring
  rw [normalizeTypeKey_sample, (holds_run _ _).types, readings_requiring h,
    latest_requiring hlast]
  rfl

theorem outcome_judge_requiring {r : Resource} (hkey : r.typeKey = "t.g/v") :
    ((requiring fields).judge r).outcome =
      (requiringType field).outcome (checkedObject (requiringType field) r) := by
  have hfind := find?_types_requiring h hlast
  rw [outcome_judge, TypeIndex.outcome, hkey, hfind]
  intro t ht
  rw [hkey, hfind] at ht
  cases ht
  unfold requiring
  rw [hkey, normalizeTypeKey_sample, (holds_run _ _).validators, readings_requiring h,
    latest_requiring hlast]
  have hvalidator : (requiringType field).validator? =
      Validator.compile? (requiringType field).schema := rfl
  rw [← hvalidator, List.filterMap_cons, List.filterMap_nil]
  cases (requiringType field).validator? <;> rfl

theorem readInput_requiring :
    (requiring fields).readInput "urn:ccrn:t.g/v/x" = .ok (requiringResource field) := by
  have hfield := h field (List.mem_of_getLast? hlast)
  have hhas : (requiringType field).hasUrnTemplate = true := by
    rcases hfield with rfl | rfl <;> decide +kernel
  have hparse : Urn.parse "urn:ccrn:t.g/v/x" (requiringType field).urnTemplate =
      .ok (requiringResource field) := by
    refine eq_ok_of_toOption ?_
    rcases hfield with rfl | rfl <;> decide +kernel
  exact (readInput_eq_ok_iff (find?_types_requiring h hlast) (by decide) hhas
    (typeKey_requiring hfield)).2 (.inl hparse)

end

end StaticDirectory

namespace SharedDirectory

open StaticDirectory

/-- The definition is replaced after the template was looked up. -/
def replacing : SharedDirectory where
  directory := requiring ['a']
  coming := [[], loadSteps (requiringLoads ['b'])]

theorem foldl_requiring :
    (loadSteps (requiringLoads ['b'])).foldl Step.apply (requiring ['a']) =
      requiring ['a', 'b'] := by
  have hsteps : loadSteps (requiringLoads ['a', 'b']) =
      loadSteps (requiringLoads ['a']) ++ loadSteps (requiringLoads ['b']) := rfl
  unfold requiring run
  rw [hsteps, List.foldl_append]

theorem directories_replacing :
    replacing.next.directory = requiring ['a'] ∧
      replacing.next.next.directory = requiring ['a', 'b'] ∧
      replacing.next.next.next.directory = requiring ['a', 'b'] := by
  unfold replacing
  rw [next_cons, next_cons, List.foldl_nil, foldl_requiring, next_nil]
  exact ⟨rfl, rfl, rfl⟩

theorem publishes_replacing {d : StaticDirectory} (h : replacing.Publishes d) :
    d = requiring ['a'] ∨ d = requiring ['a', 'b'] := by
  obtain ⟨done, hdone, rfl⟩ := h
  have hcoming : replacing.coming.flatten = loadSteps (requiringLoads ['b']) := rfl
  have hdirectory : replacing.directory = requiring ['a'] := rfl
  rw [hcoming, loadSteps, requiringLoads, List.map_singleton, List.map_singleton,
    List.prefix_cons_iff] at hdone
  rw [hdirectory]
  rcases hdone with rfl | ⟨rest, rfl, hrest⟩
  · exact .inl List.foldl_nil
  · rw [List.prefix_nil.1 hrest]
    exact .inr foldl_requiring

theorem mem_old : ∀ f ∈ ['a'], f = 'a' ∨ f = 'b' := by simp

theorem mem_new : ∀ f ∈ ['a', 'b'], f = 'a' ∨ f = 'b' := by simp

theorem getLast?_old : ['a'].getLast? = some 'a' := rfl

theorem getLast?_new : ['a', 'b'].getLast? = some 'b' := rfl

/-- A URN is read by the old definition and judged by the new one. -/
theorem fst_run_replacing :
    ((validate "urn:ccrn:t.g/v/x" : StateM SharedDirectory _).run replacing).1 =
      (requiring ['a', 'b']).judge (requiringResource 'a') := by
  have hkey := typeKey_requiring (.inl rfl : 'a' = 'a' ∨ 'a' = 'b')
  have hold : (requiring ['a']).getType "t.g/v" = .ok (requiringType 'a') :=
    getType_of_find? (find?_types_requiring mem_old getLast?_old)
  have hnew : (requiring ['a', 'b']).getType "t.g/v" = .ok (requiringType 'b') :=
    getType_of_find? (find?_types_requiring mem_new getLast?_new)
  obtain ⟨hfirst, hsecond, hthird⟩ := directories_replacing
  have hread : replacing.next.directory.readInput "urn:ccrn:t.g/v/x" =
      .ok (requiringResource 'a') := by
    rw [hfirst]
    exact readInput_requiring mem_old getLast?_old
  rw [fst_run_validate_of_ok hread, fst_run_judge, hkey]
  rcases ite_eq_or_eq ((soughtKey? "urn:ccrn:t.g/v/x" "").isSome = true) replacing.next
    replacing with hs' | hs'
  · simp only [hs', hsecond, hthird, hnew]
  · simp only [hs', hfirst, hsecond, hold, hnew]

/-- A verdict need not be that of any published index. -/
theorem not_forall_published :
    ¬ ∀ (s : SharedDirectory) (input : String), ∃ d, s.Publishes d ∧
      d.validate input = ((validate input : StateM SharedDirectory _).run s).1 := by
  intro h
  obtain ⟨d, hd, hsame⟩ := h replacing "urn:ccrn:t.g/v/x"
  rw [fst_run_replacing] at hsame
  have hkey := typeKey_requiring (.inl rfl : 'a' = 'a' ∨ 'a' = 'b')
  have hread : d.readInput "urn:ccrn:t.g/v/x" = .ok (requiringResource 'a') := by
    rw [← parsed_validate_eq_some_iff, hsame, parsed_judge]
  rcases publishes_replacing hd with rfl | rfl
  · -- The old definition accepts the resource, and the new one does not.
    rw [validate_eq, hread] at hsame
    have houtcome := congrArg Verdict.outcome hsame
    simp only at houtcome
    rw [outcome_judge_requiring mem_old getLast?_old hkey,
      outcome_judge_requiring mem_new getLast?_new hkey] at houtcome
    exact absurd houtcome (by decide +kernel)
  · -- The new definition reads the URN as another resource.
    rw [readInput_requiring mem_new getLast?_new] at hread
    exact absurd (Except.ok.inj hread) (by decide +kernel)

end SharedDirectory

end ResourceNames
