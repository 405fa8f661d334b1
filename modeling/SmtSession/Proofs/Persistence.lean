import SmtSession.Proofs.JsonText
import SmtSession.SessionConfig.Json

namespace SmtSession

namespace Json

/-! ### Values in canonical form -/

section

variable {levels : Nat}

theorem insertField_last {name : String} {sorted : List (String × Json)}
    (after : ∀ field ∈ sorted, field.1 < name) (value : Json) :
    insertField name value sorted = sorted ++ [(name, value)] := by
  induction sorted with
  | nil => rfl
  | cons field rest ih =>
    obtain ⟨first, later⟩ := List.forall_mem_cons.mp after
    have other : name ≠ field.1 := by
      rintro rfl
      exact String.lt_irrefl _ first
    rw [insertField, if_neg (String.lt_asymm first), if_neg other, ih later, List.cons_append]

theorem canonicalItems?_eq_self {items : List Json}
    (each : ∀ item ∈ items, item.canonical? levels = some item) :
    canonicalItems? levels items = some items := by
  induction items with
  | nil => rfl
  | cons item rest ih =>
    obtain ⟨first, later⟩ := List.forall_mem_cons.mp each
    rw [canonicalItems?, first, ih later]
    rfl

/-- Fields in the order of their names are put behind those before them. -/
theorem canonicalFields?_eq {sorted fields : List (String × Json)}
    (ordered : (sorted ++ fields).Pairwise (fun first second => first.1 < second.1))
    (each : ∀ field ∈ fields, field.2.canonical? levels = some field.2) :
    canonicalFields? levels sorted fields = some (sorted ++ fields) := by
  induction fields generalizing sorted with
  | nil => rw [canonicalFields?, List.append_nil]
  | cons field rest ih =>
    obtain ⟨first, later⟩ := List.forall_mem_cons.mp each
    have after : ∀ other ∈ sorted, other.1 < field.1 := fun other member =>
      (List.pairwise_append.mp ordered).2.2 other member field List.mem_cons_self
    rw [canonicalFields?, first, Option.bind_some, insertField_last after,
      ih (by rwa [List.append_assoc]) later, List.append_assoc]
    rfl

/-- A plain value within the limit is its own canonical form. -/
theorem Plain.canonical? {depth : Nat} {json : Json} (plain : Plain depth json)
    (within : depth ≤ levels) : json.canonical? levels = some json := by
  induction plain generalizing levels with
  | null | bool | natural | negative | string => rfl
  | @array depth items _ each =>
    have positive : levels ≠ 0 := Nat.ne_zero_of_lt within
    have inside := canonicalItems?_eq_self fun item member =>
      each item member (Nat.le_sub_one_of_lt within)
    rw [Json.canonical?, if_neg positive, inside]
    rfl
  | @object depth fields ordered _ each =>
    have positive : levels ≠ 0 := Nat.ne_zero_of_lt within
    have inside := @canonicalFields?_eq (levels - 1) [] fields ordered fun field member =>
      each field member (Nat.le_sub_one_of_lt within)
    rw [Json.canonical?, if_neg positive, inside]
    rfl

end

/-! ### Records -/

/-- A field that is left out of a record has its default. -/
theorem orDefault_kept {α : Type} {read : Json → Option α} {json : Json} {value : α}
    (reads : read json = some value) (default : α) (kept : Bool) :
    orDefault default read (if kept then some json else none) =
      some (if kept then value else default) := by
  cases kept with
  | false => rfl
  | true => exact reads

section

variable {names : List String} {known others fields : List (String × Json)} {kept : String → Bool}

/-- What remains of a field when some are left out, all are permuted and foreign ones are added. -/
theorem fieldValues_rearranged
    (rearranged : fields.Perm (known.filter (fun field => kept field.1) ++ others))
    (foreign : ∀ field ∈ others, field.1 ∉ names) {name : String} (own : name ∈ names)
    {value : Json} (single : fieldValues name known = [value]) :
    fieldValues name fields = if kept name then [value] else [] := by
  have absent : others.filter (·.1 == name) = [] :=
    List.filter_eq_nil_iff.mpr fun field member same =>
      foreign field member (beq_iff_eq.mp same ▸ own)
  have found := (rearranged.filter (·.1 == name)).map (·.2)
  rw [List.filter_append, absent, List.append_nil, List.filter_filter] at found
  cases keeps : kept name with
  | true =>
    have all : known.filter (fun field => field.1 == name && kept field.1) =
        known.filter (·.1 == name) := by
      refine List.filter_congr fun field _ => ?_
      by_cases same : field.1 = name
      · rw [same, keeps, Bool.and_true]
      · rw [beq_eq_false_iff_ne.mpr same, Bool.false_and]
    rw [all] at found
    exact List.perm_singleton.mp (single ▸ found)
  | false =>
    have nothing : known.filter (fun field => field.1 == name && kept field.1) = [] := by
      refine List.filter_eq_nil_iff.mpr fun field _ both => ?_
      obtain ⟨same, stays⟩ := Bool.and_eq_true_iff.mp both
      rw [beq_iff_eq.mp same, keeps] at stays
      cases stays
    rw [nothing] at found
    exact List.perm_nil.mp found

theorem mapM_eq_map {α β : Type} {f : α → Option β} {g : α → β} {items : List α}
    (each : ∀ item ∈ items, f item = some (g item)) : items.mapM f = some (items.map g) := by
  induction items with
  | nil => rfl
  | cons item rest ih =>
    obtain ⟨first, later⟩ := List.forall_mem_cons.mp each
    rw [List.mapM_cons, first, ih later]
    rfl

/-- The fields of a record are found in a rearranged object, and none in the place of those that are
left out. -/
theorem recordFields?_rearranged
    (rearranged : fields.Perm (known.filter (fun field => kept field.1) ++ others))
    (foreign : ∀ field ∈ others, field.1 ∉ names) {values : String → Json}
    (single : ∀ name ∈ names, fieldValues name known = [values name]) :
    recordFields? names (.object fields) =
      some (names.map fun name => if kept name then some (values name) else none) := by
  rw [recordFields?]
  refine mapM_eq_map fun name own => ?_
  rw [fieldValues_rearranged rearranged foreign own (single name own)]
  cases kept name <;> rfl

end

end Json

/-! ### Options -/

theorem RawOption.ofJson?_toJson {levels : Nat} {option : RawOption}
    (plain : option.value.Plain levels) : ofJson? levels option.toJson = some option := by
  have fields : Json.recordFields? ["name", "value"] option.toJson =
      some [some (.string option.name), some option.value] := rfl
  rw [ofJson?, fields]
  simp only [Json.string?, plain.canonical? (Nat.le_refl levels)]

theorem RawOption.plain_toJson {levels : Nat} {option : RawOption}
    (plain : option.value.Plain levels) : option.toJson.Plain (levels + 1) := by
  have ordered : "name" < "value" := by decide
  refine .object (List.pairwise_pair.mpr ordered) fun field member => ?_
  obtain rfl | rfl : field = ("name", .string option.name) ∨ field = ("value", option.value) := by
    simpa using member
  · exact .string option.name
  · exact plain

theorem SolverOption.reread_toJson (option : SolverOption) :
    option.toJson.reread = option.toJson := by
  obtain ⟨name, value⟩ := option
  cases value <;> rfl

theorem SolverOption.ofJson?_toJson (option : SolverOption) :
    ofJson? option.toJson = some option := by
  obtain ⟨name, value⟩ := option
  cases value <;> rfl

theorem BackendMode.ofJson?_text (mode : BackendMode) :
    ofJson? (.string mode.text) = some mode := by
  cases mode <;> rfl

theorem OptionPolicy.ofJson?_text (policy : OptionPolicy) :
    ofJson? (.string policy.text) = some policy := by
  cases policy <;> rfl

/-! ### Settings -/

namespace SessionConfig

def jsonFields (config : SessionConfig) : List (String × Json) :=
  [("mode", .string config.mode.text),
    ("incremental", .bool config.incremental),
    ("options", .array (config.options.map RawOption.toJson)),
    ("option_policy", .string config.optionPolicy.text),
    ("check_timeout_ms", .number (.natural config.checkTimeoutMillis)),
    ("heartbeat_ms", .number (.natural config.heartbeatMillis))]

theorem toJson_eq (config : SessionConfig) : config.toJson = .object config.jsonFields := rfl

/-- The settings with the defaults in the place of those that are not kept. -/
def keeping (kept : String → Bool) (config : SessionConfig) : SessionConfig :=
  let defaults : SessionConfig := {}
  { mode := if kept "mode" then config.mode else defaults.mode
    incremental := if kept "incremental" then config.incremental else defaults.incremental
    options := if kept "options" then config.options else defaults.options
    optionPolicy := if kept "option_policy" then config.optionPolicy else defaults.optionPolicy
    checkTimeoutMillis :=
      if kept "check_timeout_ms" then config.checkTimeoutMillis else defaults.checkTimeoutMillis
    heartbeatMillis :=
      if kept "heartbeat_ms" then config.heartbeatMillis else defaults.heartbeatMillis }

/-- The values of the options are made of strings and integers and nest no deeper than a text allows
where they stand. -/
def IsPlain (config : SessionConfig) : Prop :=
  ∀ option ∈ config.options, option.value.Plain (Json.nestingLimit - 3)

section

variable {config : SessionConfig}

theorem IsPlain.optionsOfJson? (plain : config.IsPlain) :
    SessionConfig.optionsOfJson? (.array (config.options.map RawOption.toJson)) =
      some config.options := by
  rw [SessionConfig.optionsOfJson?, List.mapM_map]
  exact (Json.mapM_eq_map fun option member => RawOption.ofJson?_toJson (plain option member)).trans
    (congrArg some (List.map_id config.options))

def jsonField (config : SessionConfig) (name : String) : Json :=
  (config.jsonFields.lookup name).getD .null

theorem fieldValues_jsonFields (config : SessionConfig) :
    ∀ name ∈ fieldNames, Json.fieldValues name config.jsonFields = [config.jsonField name] := by
  simp only [fieldNames, List.forall_mem_cons, List.not_mem_nil, false_implies, implies_true,
    and_true]
  exact ⟨rfl, rfl, rfl, rfl, rfl, rfl⟩

variable {kept : String → Bool} {others fields : List (String × Json)}

/-- Rearranged settings are read with what was left out at its default. -/
theorem IsPlain.ofJson?_rearranged (plain : config.IsPlain)
    (foreign : ∀ field ∈ others, field.1 ∉ fieldNames)
    (rearranged : fields.Perm (config.jsonFields.filter (fun field => kept field.1) ++ others)) :
    SessionConfig.ofJson? (.object fields) = some (config.keeping kept) := by
  have found := Json.recordFields?_rearranged rearranged foreign config.fieldValues_jsonFields
  have mode : BackendMode.ofJson? (config.jsonField "mode") = some config.mode :=
    config.mode.ofJson?_text
  have incremental : Json.bool? (config.jsonField "incremental") = some config.incremental := rfl
  have options : SessionConfig.optionsOfJson? (config.jsonField "options") = some config.options :=
    plain.optionsOfJson?
  have policy : OptionPolicy.ofJson? (config.jsonField "option_policy") =
      some config.optionPolicy := config.optionPolicy.ofJson?_text
  have timeout : Json.natural? (config.jsonField "check_timeout_ms") =
      some config.checkTimeoutMillis := rfl
  have heartbeat : Json.natural? (config.jsonField "heartbeat_ms") =
      some config.heartbeatMillis := rfl
  rw [SessionConfig.ofJson?, found]
  simp only [fieldNames, List.map_cons, List.map_nil, Json.orDefault_kept mode,
    Json.orDefault_kept incremental, Json.orDefault_kept options, Json.orDefault_kept policy,
    Json.orDefault_kept timeout, Json.orDefault_kept heartbeat]
  rfl

theorem ofJsonText_of_read? {text : String} {json : Json} (read : Json.read? text = some json)
    (states : SessionConfig.ofJson? json = some config) : ofJsonText text = .ok config := by
  rw [ofJsonText, read, Option.bind_some, states]

theorem IsPlain.jsonFields (plain : config.IsPlain) :
    ∀ field ∈ config.jsonFields, field.2.Plain (Json.nestingLimit - 1) := by
  have options : Json.Plain (Json.nestingLimit - 1)
      (.array (config.options.map RawOption.toJson)) := by
    refine .array fun item member => ?_
    obtain ⟨option, own, rfl⟩ := List.mem_map.mp member
    exact RawOption.plain_toJson (plain option own)
  simp only [SessionConfig.jsonFields, List.forall_mem_cons, List.not_mem_nil, false_implies,
    implies_true, and_true]
  exact ⟨.string _, .bool _, options, .string _, .natural _, .natural _⟩

theorem IsPlain.rereadFields_rearranged (plain : config.IsPlain)
    (rearranged : fields.Perm (config.jsonFields.filter (fun field => kept field.1) ++ others)) :
    (Json.rereadFields fields).Perm
      (config.jsonFields.filter (fun field => kept field.1) ++ Json.rereadFields others) := by
  have same : Json.rereadFields (config.jsonFields.filter fun field => kept field.1) =
      config.jsonFields.filter fun field => kept field.1 :=
    Json.rereadFields_eq_self fun field member =>
      (plain.jsonFields field (List.mem_filter.mp member).1).reread
  have both := rearranged.map fun field => (field.1, field.2.reread)
  rwa [List.map_append, ← Json.rereadFields_eq_map, ← Json.rereadFields_eq_map,
    ← Json.rereadFields_eq_map, same] at both

theorem foreign_rereadFields (foreign : ∀ field ∈ others, field.1 ∉ fieldNames) :
    ∀ field ∈ Json.rereadFields others, field.1 ∉ fieldNames := by
  intro field member
  rw [Json.rereadFields_eq_map] at member
  obtain ⟨other, own, rfl⟩ := List.mem_map.mp member
  exact foreign other own

/-- The text of rearranged settings states them, with what was left out at its default. -/
theorem IsPlain.ofJsonText_rearranged (plain : config.IsPlain)
    (foreign : ∀ field ∈ others, field.1 ∉ fieldNames)
    (rearranged : fields.Perm (config.jsonFields.filter (fun field => kept field.1) ++ others)) :
    ofJsonText (Json.object fields).text = .ok (config.keeping kept) :=
  ofJsonText_of_read? (Json.read?_text (.object fields)) <|
    plain.ofJson?_rearranged (foreign_rereadFields foreign)
      (plain.rereadFields_rearranged rearranged)

/-- Plain settings survive their JSON form, and so do single options. An object of their fields, some
left out and others added, in any order, states the same settings with the defaults for what was
left out, in its own text and in any other text of it. -/
theorem survives_json (plain : config.IsPlain) :
    ofJsonText config.toJson.text = .ok config ∧
      (∀ (kept : String → Bool) (others fields : List (String × Json)),
        (∀ field ∈ others, field.1 ∉ fieldNames) →
        fields.Perm (config.jsonFields.filter (fun field => kept field.1) ++ others) →
        ofJsonText (Json.object fields).text = .ok (config.keeping kept) ∧
          ∀ text, Json.read? text = some (.object fields) →
            ofJsonText text = .ok (config.keeping kept)) ∧
      ∀ option : SolverOption, SolverOption.ofJsonText? option.toJson.text = some option := by
  refine ⟨?_, fun kept others fields foreign rearranged => ⟨?_, fun text read => ?_⟩,
    fun option => ?_⟩
  · have nothing : ∀ field ∈ ([] : List (String × Json)), field.1 ∉ fieldNames := by
      rintro field ⟨⟩
    have all : config.jsonFields.Perm (config.jsonFields.filter (fun _ => true) ++ []) := by
      rw [List.filter_eq_self.mpr fun _ _ => rfl, List.append_nil]
    have whole : ofJsonText (Json.object config.jsonFields).text =
        .ok (config.keeping fun _ => true) := plain.ofJsonText_rearranged nothing all
    rw [toJson_eq]
    exact whole
  · exact plain.ofJsonText_rearranged foreign rearranged
  · exact ofJsonText_of_read? read (plain.ofJson?_rearranged foreign rearranged)
  · rw [SolverOption.ofJsonText?, Json.read?_text, option.reread_toJson, Option.bind_some,
      option.ofJson?_toJson]

end

/-- Options with a name and a text to escape, with the least and the greatest integer, and with an
object. -/
def variedSettings : SessionConfig where
  mode := .native
  options := [⟨"say \"no\"\n", .array [.null, .string "\x01\\", .number (.negative (Fin.last _))]⟩,
    ⟨"", .object [("limit", .number (.natural 18446744073709551615)), ("seed", .object [])]⟩]
  optionPolicy := .reject
  checkTimeoutMillis := 0

theorem variedSettings_isPlain : variedSettings.IsPlain := by
  rintro option (_ | ⟨_, _ | ⟨_, ⟨⟩⟩⟩)
  · refine .array ?_
    simp only [List.forall_mem_cons, List.not_mem_nil, false_implies, implies_true, and_true]
    exact ⟨.null, .string _, .negative _⟩
  · refine .object (by decide) ?_
    simp only [List.forall_mem_cons, List.not_mem_nil, false_implies, implies_true, and_true]
    exact ⟨.natural _, .object .nil nofun⟩

/-- The settings come back from their own text, from one that says them backwards without the policy
and with a field that is none of theirs, and from one with blanks that says nothing. -/
theorem variedSettings_survive :
    variedSettings.IsPlain ∧
      ofJsonText variedSettings.toJson.text = .ok variedSettings ∧
      ofJsonText (Json.object [("theme", .meaningless),
          ("heartbeat_ms", .number (.natural 1000)),
          ("check_timeout_ms", .number (.natural 0)),
          ("options", .array (variedSettings.options.map RawOption.toJson)),
          ("incremental", .bool true), ("mode", .string "native")]).text =
        .ok { variedSettings with optionPolicy := .warn } ∧
      ofJsonText " { } " = .ok {} ∧
      SolverOption.ofJsonText? (SolverOption.mk "007" (.symbol "42")).toJson.text =
        some ⟨"007", .symbol "42"⟩ := by
  obtain ⟨whole, rearranged, single⟩ := survives_json variedSettings_isPlain
  refine ⟨variedSettings_isPlain, whole, ?_, ?_, single _⟩
  · exact (rearranged (· != "option_policy") [("theme", .meaningless)] _ (by decide)
      (List.reverse_perm _)).1
  · exact (rearranged (fun _ => false) [] [] (by decide) (by rfl)).2 " { } " rfl

end SessionConfig

end SmtSession
