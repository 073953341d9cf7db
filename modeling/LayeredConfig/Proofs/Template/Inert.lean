/-
  LayeredConfig.Proofs.Template.Inert

  Templates that load as nothing.

  A template is a sequence of texts, each behind a comment sign and with a line
  feed after it.  What such a text may be is a matter of the text alone
  (`StaysComment`): its first line has no control character, and where it goes
  over lines the others must be blank or comments by themselves.  A template is
  the empty document exactly if all its texts are such (`template_inert_iff`);
  nothing in the template keeps a line feed in a name, a message or a default
  behind the comment sign.
-/
import LayeredConfig.Proofs.Layers
import LayeredConfig.Proofs.Toml.Blank
import LayeredConfig.Proofs.TypeName.RoundTrip
import LayeredConfig.Report

namespace LayeredConfig

/-! ## Texts behind a comment sign -/

/-- Whether a text stays in the comments when it is written behind a comment
    sign. -/
def StaysComment (text : List Char) : Prop :=
  Toml.IsQuiet ('#' :: text)

instance (text : List Char) : Decidable (StaysComment text) :=
  inferInstanceAs (Decidable (Toml.IsQuiet ('#' :: text)))

/-- Only the first line of a text stands behind the sign. -/
theorem staysComment_iff {text first : List Char} {rest : List (List Char)}
    (h : Text.splitAt '\n' text = first :: rest) :
    StaysComment text ↔ Toml.isQuietLine ('#' :: first) = true
      ∧ ∀ line ∈ rest, Toml.isQuietLine line = true := by
  rw [StaysComment, Toml.IsQuiet, Text.splitAt_cons_of_ne (by decide) h, List.forall_mem_cons]

/-- Plain characters at the start do not count. -/
theorem staysComment_append {start : List Char} (h : Toml.Plain start) (text : List Char) :
    StaysComment (start ++ text) ↔ StaysComment text := by
  have hquiet (line : List Char) :
      Toml.isQuietLine ('#' :: (start ++ line)) = Toml.isQuietLine ('#' :: line) := by
    have hskip : Toml.skipComment (Toml.skipSpaces ('#' :: (start ++ line)))
        = Toml.skipComment (Toml.skipSpaces ('#' :: line)) := List.dropWhile_append_of_pos h
    rw [Toml.isQuietLine, Toml.isQuietLine, hskip]
  cases hsplit : Text.splitAt '\n' text with
  | nil => exact absurd hsplit (Text.splitAt_ne_nil '\n' text)
  | cons first rest =>
    rw [staysComment_iff (Text.splitAt_append_of_notMem h.newline_notMem hsplit),
      staysComment_iff hsplit, hquiet]

theorem staysComment_of_plain {text : List Char} (h : Toml.Plain text) : StaysComment text := by
  have hnil : StaysComment [] := by decide
  rwa [← staysComment_append h, List.append_nil] at hnil

/-- A word with brackets around what is plain. -/
theorem plain_bracketed {word inner : List Char} (hword : Toml.Plain word)
    (hinner : Toml.Plain inner) : Toml.Plain (word ++ '[' :: (inner ++ [']'])) := by
  rw [Toml.plain_append_iff, Toml.plain_cons_iff, Toml.plain_append_iff]
  exact ⟨hword, by decide, hinner, by decide⟩

/-- No name of a type has a control character. -/
theorem TypeDesc.plain_nameChars (type : TypeDesc) : Toml.Plain type.nameChars := by
  induction type with
  | int => exact (by decide : Toml.Plain "Int".toList)
  | float => exact (by decide : Toml.Plain "Float".toList)
  | string => exact (by decide : Toml.Plain "String".toList)
  | bool => exact (by decide : Toml.Plain "Bool".toList)
  | optional inner ih =>
    rw [nameChars_optional]
    exact plain_bracketed (by decide) ih
  | list inner ih =>
    rw [nameChars_list]
    exact plain_bracketed (by decide) ih
  | union first second ihFirst ihSecond =>
    rw [nameChars_union]
    exact plain_bracketed (by decide)
      (Toml.plain_append_iff.mpr ⟨ihFirst, Toml.plain_cons_iff.mpr ⟨by decide, ihSecond⟩⟩)
  | expression withEnv =>
    cases withEnv with
    | true => exact (by decide : Toml.Plain "EnvExpression".toList)
    | false => exact (by decide : Toml.Plain "Expression".toList)

/-! ## The texts of a template -/

namespace Setting

/-- What a template says about a setting before its assignment. -/
def notes (setting : Setting) : List (List Char) :=
  (Text.lines setting.doc.toList).map (' ' :: ·)
    ++ (" type: ".toList ++ setting.type.nameChars)
    :: setting.guards.map fun guard => " guard: ".toList ++ guard.message.toList

/-- The assignment of the default. -/
def assignment (setting : Setting) : List Char :=
  setting.name.toList ++ " = ".toList ++ (Toml.defaultLiteral setting.default).toList

/-- The parts of a template about a setting, each a text behind a comment
    sign. -/
def templateParts (setting : Setting) : List (List Char) :=
  (setting.notes ++ [setting.assignment]).map ('#' :: ·)

theorem toList_docComment (doc : String) :
    (docComment doc).toList
      = ((Text.lines doc.toList).map (' ' :: ·)).flatMap fun line => '#' :: line ++ ['\n'] := by
  rw [docComment, Text.linesOf, String.toList_join, List.map_map, List.flatMap_map,
    List.flatMap_map]
  refine List.flatMap_congr fun line _ => ?_
  simp

theorem toList_template (setting : Setting) :
    setting.template.toList = setting.templateParts.flatMap (· ++ ['\n']) := by
  have hguards : (String.join (setting.guards.map fun guard =>
        "# guard: " ++ guard.message ++ "\n")).toList
      = (setting.guards.map fun guard => " guard: ".toList ++ guard.message.toList).flatMap
        fun text => '#' :: text ++ ['\n'] := by
    rw [String.toList_join, List.flatMap_map, List.flatMap_map]
    refine List.flatMap_congr fun guard _ => ?_
    simp
  simp only [template, String.toList_append, toList_docComment, hguards, templateParts, notes,
    assignment, TypeDesc.name, String.toList_ofList, List.flatMap_map, List.flatMap_append,
    List.flatMap_cons, List.flatMap_nil, List.append_assoc, List.cons_append, List.append_nil]
  rfl

theorem exists_templateParts_eq (setting : Setting) :
    ∃ text parts, setting.templateParts = ('#' :: text) :: parts := by
  rw [templateParts]
  cases htexts : setting.notes ++ [setting.assignment] with
  | nil => simp at htexts
  | cons text texts => exact ⟨text, texts.map ('#' :: ·), rfl⟩

/-- Whether all that a template says about a setting stays in the comments. -/
structure Inert (setting : Setting) : Prop where
  doc : ∀ line ∈ Text.lines setting.doc.toList, StaysComment line
  guards : ∀ guard ∈ setting.guards, StaysComment guard.message.toList
  assignment : StaysComment setting.assignment

instance (setting : Setting) : Decidable setting.Inert :=
  decidable_of_iff
    ((∀ line ∈ Text.lines setting.doc.toList, StaysComment line)
      ∧ (∀ guard ∈ setting.guards, StaysComment guard.message.toList)
      ∧ StaysComment setting.assignment)
    ⟨fun ⟨doc, guards, assignment⟩ => ⟨doc, guards, assignment⟩,
      fun h => ⟨h.doc, h.guards, h.assignment⟩⟩

/-- The words around the texts of a setting and the name of its type never leave
    the comments. -/
theorem inert_iff {setting : Setting} :
    setting.Inert ↔ ∀ part ∈ setting.templateParts, Toml.IsQuiet part := by
  have hspace (line : List Char) : StaysComment (' ' :: line) ↔ StaysComment line :=
    staysComment_append (by decide : Toml.Plain [' ']) line
  have hmessage (guard : Guard) : StaysComment (" guard: ".toList ++ guard.message.toList)
      ↔ StaysComment guard.message.toList := staysComment_append (by decide) _
  have htype : StaysComment (" type: ".toList ++ setting.type.nameChars) :=
    (staysComment_append (by decide) _).mpr (staysComment_of_plain setting.type.plain_nameChars)
  have hparts : (∀ part ∈ setting.templateParts, Toml.IsQuiet part)
      ↔ ∀ text ∈ setting.notes ++ [setting.assignment], StaysComment text := List.forall_mem_map
  rw [hparts, notes]
  simp only [List.forall_mem_append, List.forall_mem_singleton, List.forall_mem_cons,
    List.forall_mem_map, hspace, hmessage, htype, true_and]
  exact ⟨fun h => ⟨⟨h.doc, h.guards⟩, h.assignment⟩, fun ⟨⟨doc, guards⟩, assignment⟩ =>
    ⟨doc, guards, assignment⟩⟩

/-- Texts without control characters never leave the comments. -/
theorem inert_of_plain {setting : Setting}
    (hdoc : ∀ line ∈ Text.lines setting.doc.toList, Toml.Plain line)
    (hguards : ∀ guard ∈ setting.guards, Toml.Plain guard.message.toList)
    (hname : Toml.Plain setting.name.toList)
    (hdefault : Toml.Plain (Toml.defaultLiteral setting.default).toList) : setting.Inert where
  doc := fun line hline => staysComment_of_plain (hdoc line hline)
  guards := fun guard hguard => staysComment_of_plain (hguards guard hguard)
  assignment := by
    have hsign : Toml.Plain " = ".toList := by decide
    refine staysComment_of_plain ?_
    rw [assignment, Toml.plain_append_iff, Toml.plain_append_iff]
    exact ⟨⟨hname, hsign⟩, hdefault⟩

end Setting

namespace Schema

/-- The parts of a template: those about the settings, with an empty one between
    two settings. -/
def templateParts (schema : Schema) : List (List Char) :=
  [[]].intercalate (schema.settings.map Setting.templateParts)

/-- Joining parts with an empty one between them. -/
theorem flatMap_intercalate (groups : List (List (List Char))) :
    ([[]].intercalate groups).flatMap (· ++ ['\n'])
      = ['\n'].intercalate (groups.map fun parts => parts.flatMap (· ++ ['\n'])) := by
  induction groups with
  | nil => rfl
  | cons parts groups ih =>
    cases groups with
    | nil => simp
    | cons next groups =>
      rw [List.intercalate_cons_cons, List.map_cons, List.map_cons, List.intercalate_cons_cons,
        List.flatMap_append, List.flatMap_append, ih, List.map_cons]
      rfl

theorem toList_template (schema : Schema) :
    schema.template.toList = schema.templateParts.flatMap (· ++ ['\n']) := by
  have hsettings : (schema.settings.map Setting.template).map String.toList
      = (schema.settings.map Setting.templateParts).map fun parts =>
          parts.flatMap (· ++ ['\n']) := by
    rw [List.map_map, List.map_map]
    exact List.map_congr_left fun setting _ => setting.toList_template
  calc schema.template.toList
      = "\n".toList.intercalate ((schema.settings.map Setting.template).map String.toList) :=
        String.toList_intercalate
    _ = ['\n'].intercalate ((schema.settings.map Setting.templateParts).map fun parts =>
          parts.flatMap (· ++ ['\n'])) := congrArg _ hsettings
    _ = schema.templateParts.flatMap (· ++ ['\n']) := (flatMap_intercalate _).symm

theorem forall_mem_intercalate_iff {groups : List (List (List Char))} {p : List Char → Prop}
    (hnil : p []) : (∀ part ∈ [[]].intercalate groups, p part)
      ↔ ∀ parts ∈ groups, ∀ part ∈ parts, p part := by
  induction groups with
  | nil => simp
  | cons parts groups ih =>
    cases groups with
    | nil => simp
    | cons next groups =>
      rw [List.intercalate_cons_cons, List.forall_mem_append, List.forall_mem_append, ih,
        List.forall_mem_cons]
      simp [hnil]

/-- A template never begins with a mark of the byte order. -/
theorem skipByteOrderMark_template (schema : Schema) :
    Toml.skipByteOrderMark schema.template.toList = schema.template.toList := by
  rw [toList_template, templateParts]
  cases schema.settings with
  | nil => rfl
  | cons setting settings =>
    obtain ⟨text, parts, hparts⟩ := setting.exists_templateParts_eq
    rw [List.map_cons, hparts]
    cases settings with
    | nil => simp [Toml.skipByteOrderMark]
    | cons next settings =>
      rw [List.map_cons, List.intercalate_cons_cons]
      simp [Toml.skipByteOrderMark]

/-! ## Loading a template -/

variable {environment : Environment} {schema : Schema} {strict : Bool}

/-- A file with the empty document does not count, whatever files stand before
    and behind it. -/
theorem mergeOnto_of_document_eq_nil {file : ConfigFile} (h : file.document = .ok [])
    (lower upper : List ConfigFile) (merged : Document) :
    schema.mergeOnto strict merged (lower ++ file :: upper)
      = schema.mergeOnto strict merged (lower ++ upper) := by
  induction lower generalizing merged with
  | nil =>
    have hadmits : schema.Admits strict [] := ⟨by simp [Fits], fun _ => rfl⟩
    have hchecked : schema.checkedDocument strict file = .ok [] :=
      checkedDocument_eq_ok_iff.mpr ⟨h, hadmits⟩
    rw [List.nil_append, List.nil_append, mergeOnto, hchecked]
    rfl
  | cons first lower ih =>
    rw [List.cons_append, List.cons_append, mergeOnto, mergeOnto]
    simp only [ih]

/-- A template is the empty document exactly if all that it says about the
    settings stays in the comments.  Then it does not count as a file, whatever
    schema reads it and wherever it stands among other files. -/
theorem template_inert_iff (schema : Schema) :
    (Toml.ofString schema.template = some []
        ↔ ∀ setting ∈ schema.settings, setting.Inert)
      ∧ ((∀ setting ∈ schema.settings, setting.Inert) →
        ∀ (environment : Environment) (reader : Schema) (strict : Bool) (path : String)
          (lower upper : List ConfigFile) (layers : RuntimeLayers),
          reader.resolve environment strict (lower ++ ⟨path, schema.template⟩ :: upper) layers
            = reader.resolve environment strict (lower ++ upper) layers) := by
  have hmark := schema.skipByteOrderMark_template
  have hempty : Toml.ofString schema.template = some []
      ↔ ∀ setting ∈ schema.settings, setting.Inert := by
    rw [toList_template] at hmark
    rw [Toml.ofString, toList_template, Toml.read_eq_nil_iff hmark, templateParts,
      forall_mem_intercalate_iff (by decide)]
    simp only [List.forall_mem_map, Setting.inert_iff]
  refine ⟨hempty, fun hinert environment reader strict path lower upper layers => ?_⟩
  have hdocument : (ConfigFile.mk path schema.template).document = .ok [] :=
    ConfigFile.document_eq_ok_iff.mpr (hempty.mpr hinert)
  rw [resolve, resolve, mergeFiles, mergeFiles, mergeOnto_of_document_eq_nil hdocument]

/-- The template of a small server is the empty document, and a server that has
    it as its only file is one without files. -/
theorem template_inert_server :
    Toml.ofString server.template = some []
      ∧ server.resolve .empty true [⟨"config.toml", server.template⟩] ⟨none, [], []⟩
        = server.resolve .empty true [] ⟨none, [], []⟩ := by
  have hinert : ∀ setting ∈ server.settings, setting.Inert := by decide
  obtain ⟨hempty, hresolve⟩ := template_inert_iff server
  exact ⟨hempty.mpr hinert, hresolve hinert .empty server true "config.toml" [] [] ⟨none, [], []⟩⟩

/-- A schema whose one setting has a default of two lines. -/
def motd : Schema :=
  ⟨[⟨"motd", .string, "Text of the day.", .string "first\nsecond", []⟩], by decide⟩

/-- The second line of a default stands without a comment sign, and the template
    is no TOML text. -/
theorem template_motd :
    (Setting.declare .empty "motd" .string "Text of the day." (.string "first\nsecond")
        >>= empty.add)
      = .ok motd
      ∧ Toml.ofString motd.template = none := by
  have htext : motd.template.toList
      = "# Text of the day.\n# type: String\n#motd = \"\"\"\nfirst\nsecond\"\"\"\n".toList := by
    rw [toList_template]
    decide
  refine ⟨rfl, ?_⟩
  rw [Toml.ofString, htext]
  decide +kernel

end Schema

end LayeredConfig
