/-
  LayeredConfig.Proofs.KeyLines

  The lines of keys in plainly written files.

  The search for the line of a key does not read the file again; it looks at one
  line after the other and remembers the last header.  A file is plainly written
  if each of its lines is empty, a comment, a header with a bare name or an
  assignment to a bare key.  There one line does to the search what its form
  tells (`lineOfKey_cons`), and so the search finds the first line that assigns
  the key below a header of the section, with no other header between the two
  (`findKeyLine_of_writesLines`).
-/
import LayeredConfig.Proofs.Text.Pieces
import LayeredConfig.Proofs.Text.Trim
import LayeredConfig.Proofs.Toml.Assignments
import LayeredConfig.Validation
import Mathlib.Order.Bounds.Defs

namespace LayeredConfig

open Toml (IsBareKey isBareKeyChar)

/-! ## Plainly written lines -/

/-- What a plainly written line is in its file. -/
inductive LineForm where
  /-- An empty line or a comment. -/
  | quiet
  /-- The header of a table. -/
  | header (name : String)
  /-- The assignment of some value to a key. -/
  | assignment (key : String)
deriving DecidableEq

namespace LineForm

/-- The name in a header. -/
def name? : LineForm → Option String
  | header name => some name
  | _ => none

/-- A bare name stands in a text with or without quotes, and with white space
    around it. -/
def Surrounds (inner : List Char) (name : String) : Prop :=
  ∃ front word back, (∀ c ∈ front, Text.isBlank c = true) ∧ (∀ c ∈ back, Text.isBlank c = true)
    ∧ (word = name.toList ∨ word = ['"'] ++ name.toList ++ ['"']) ∧ inner = front ++ word ++ back

/-- What may stand behind the bracket that closes a header: white space and a
    comment, or one of them, or nothing. -/
def EndsHeader (tail : List Char) : Prop :=
  ∃ blank comment, (∀ c ∈ blank, Text.isBlank c = true) ∧ tail = blank ++ comment
    ∧ (comment = [] ∨ ∃ text, comment = '#' :: text)

/-- A line, without the white space around it, has a form.  The value of an
    assignment may be any text. -/
inductive Writes : LineForm → List Char → Prop where
  | empty : Writes quiet []
  | comment (text : List Char) : Writes quiet ('#' :: text)
  | header {name : String} {inner tail : List Char} (hname : IsBareKey name)
    (hinner : Surrounds inner name) (htail : EndsHeader tail) :
    Writes (header name) ('[' :: (inner ++ ']' :: tail))
  | assignment {key : String} {blank value : List Char} (hkey : IsBareKey key)
    (hblank : ∀ c ∈ blank, Text.isBlank c = true) :
    Writes (assignment key) (key.toList ++ (blank ++ '=' :: value))

/-- The lines of a text have the given forms. -/
def WritesLines (forms : List LineForm) (content : String) : Prop :=
  List.Forall₂ (fun form line => form.Writes (Text.trim line)) forms (Text.lines content.toList)

/-! ## Places -/

/-- The name in the last header of some lines, `current` if there is none. -/
def lastName? (current : Option String) (forms : List LineForm) : Option String :=
  (forms.reverse.findSome? name?).or current

theorem lastName?_cons (current : Option String) (form : LineForm) (forms : List LineForm) :
    lastName? current (form :: forms) = lastName? (form.name?.or current) forms := by
  cases h : form.name? with
  | none => simp [lastName?, List.findSome?_append, h]
  | some name => simp [lastName?, List.findSome?_append, h]

theorem name?_eq_some_iff {form : LineForm} {name : String} :
    form.name? = some name ↔ form = header name := by
  cases form <;> simp [name?]

/-- The last header is the one below which there is no other. -/
theorem lastName?_none_eq_some_iff {forms : List LineForm} {name : String} :
    lastName? none forms = some name ↔ ∃ before between,
      forms = before ++ header name :: between ∧ ∀ form ∈ between, form.name? = none := by
  rw [lastName?, Option.or_none, List.findSome?_eq_some_iff]
  constructor
  · rintro ⟨between, form, before, hforms, hname, hbetween⟩
    obtain rfl := name?_eq_some_iff.mp hname
    refine ⟨before.reverse, between.reverse, ?_, by simpa using hbetween⟩
    rw [← List.reverse_reverse forms, hforms]
    simp
  · rintro ⟨before, between, rfl, hbetween⟩
    exact ⟨between.reverse, header name, before.reverse, by simp, rfl, by simpa using hbetween⟩

variable {forms : List LineForm} {sectionName key : String}

/-- The line with a number, counted from one, assigns a key, and above it stands
    a header of the section with no other header in between. -/
def AssignsOn (forms : List LineForm) (sectionName key : String) (number : Nat) : Prop :=
  ∃ before between after,
    forms = before ++ header sectionName :: (between ++ assignment key :: after)
      ∧ (∀ form ∈ between, form.name? = none) ∧ number = before.length + 1 + between.length + 1

/-- The line at an index assigns a key of a section if `current` is the section
    before the first line. -/
def AssignsAt (current : Option String) (forms : List LineForm) (sectionName key : String)
    (index : Nat) : Prop :=
  forms[index]? = some (assignment key) ∧ lastName? current (forms.take index) = some sectionName

theorem assignsAt_zero {current : Option String} {form : LineForm} :
    AssignsAt current (form :: forms) sectionName key 0 ↔
      form = assignment key ∧ current = some sectionName := by
  simp [AssignsAt, lastName?]

theorem assignsAt_succ {current : Option String} {form : LineForm} {index : Nat} :
    AssignsAt current (form :: forms) sectionName key (index + 1) ↔
      AssignsAt (form.name?.or current) forms sectionName key index := by
  rw [AssignsAt, AssignsAt, List.getElem?_cons_succ, List.take_succ_cons, lastName?_cons]

theorem assignsOn_succ_iff {index : Nat} :
    AssignsOn forms sectionName key (index + 1) ↔
      AssignsAt none forms sectionName key index := by
  constructor
  · rintro ⟨before, between, after, rfl, hbetween, hindex⟩
    obtain rfl : index = (before ++ header sectionName :: between).length := by
      simp only [List.length_append, List.length_cons]
      omega
    have hforms : before ++ header sectionName :: (between ++ assignment key :: after)
        = (before ++ header sectionName :: between) ++ assignment key :: after := by simp
    rw [AssignsAt, hforms, List.getElem?_append_right (Nat.le_refl _), Nat.sub_self,
      List.take_left]
    exact ⟨rfl, lastName?_none_eq_some_iff.mpr ⟨before, between, rfl, hbetween⟩⟩
  · rintro ⟨hassigns, hname⟩
    obtain ⟨before, between, htake, hbetween⟩ := lastName?_none_eq_some_iff.mp hname
    obtain ⟨hlt, hindex⟩ := List.getElem?_eq_some_iff.mp hassigns
    refine ⟨before, between, forms.drop (index + 1), ?_, hbetween, ?_⟩
    · calc forms = forms.take index ++ forms.drop index := (List.take_append_drop _ _).symm
        _ = _ := by rw [List.drop_eq_getElem_cons hlt, hindex, htake]; simp
    · have hlength := congrArg List.length htake
      simp only [List.length_take, List.length_append, List.length_cons] at hlength
      omega

theorem not_assignsOn_zero : ¬AssignsOn forms sectionName key 0 := by
  rintro ⟨before, between, after, -, -, hnumber⟩
  omega

end LineForm

/-! ## Bare keys in lines -/

section Line

variable {name key : String} {line blank value : List Char}

theorem not_isBlank_of_isBareKeyChar {c : Char} (h : isBareKeyChar c = true) :
    Text.isBlank c = false := by
  simp only [isBareKeyChar, Bool.or_eq_true, beq_iff_eq] at h
  rcases h with (h | rfl) | rfl
  · -- letters and digits lie between the two blocks of ASCII with control characters
    have hrange : 0x20 < c.toNat ∧ c.toNat < 0x7F :=
      (Text.toNat_of_isAlphanum h).imp (Nat.lt_of_lt_of_le (by decide))
        (Nat.lt_of_le_of_lt · (by decide))
    simp [Text.isBlank]
    omega
  all_goals decide

/-- A bare key in front of an equals sign can be read off the line. -/
theorem takeWhile_isBareKeyChar (hkey : IsBareKey key)
    (hblank : ∀ c ∈ blank, Text.isBlank c = true) :
    (key.toList ++ (blank ++ '=' :: value)).takeWhile isBareKeyChar = key.toList := by
  rw [List.takeWhile_append_of_pos hkey.isBareKeyChar]
  cases blank with
  | nil => rw [List.nil_append, List.takeWhile_cons_of_neg (by decide), List.append_nil]
  | cons c blank =>
    have hc : isBareKeyChar c ≠ true := fun h =>
      absurd (hblank c List.mem_cons_self) (by simp [not_isBlank_of_isBareKeyChar h])
    rw [List.cons_append, List.takeWhile_cons_of_neg hc, List.append_nil]

/-- A line assigns a key if white space and an equals sign are all that follows
    it. -/
theorem assigns_iff {key : List Char} : assigns key line = true ↔
    ∃ blank value, (∀ c ∈ blank, Text.isBlank c = true)
      ∧ line = key ++ (blank ++ '=' :: value) := by
  constructor
  · intro h
    rw [assigns] at h
    split at h
    · rename_i rest hrest
      have hvalue : ∃ value, Text.trimStart rest = '=' :: value :=
        List.head?_eq_some_iff.mp (eq_of_beq h)
      obtain ⟨value, hvalue⟩ := hvalue
      obtain ⟨blank, hblank, rfl⟩ := (Text.trimStart_eq_cons_iff (by decide)).mp hvalue
      exact ⟨blank, value, hblank, Text.stripStart?_eq_some_iff.mp hrest⟩
    · contradiction
  · rintro ⟨blank, value, hblank, hline⟩
    have hvalue : Text.trimStart (blank ++ '=' :: value) = '=' :: value :=
      (Text.trimStart_eq_cons_iff (by decide)).mpr ⟨blank, hblank, rfl⟩
    rw [assigns, Text.stripStart?_eq_some_iff.mpr hline]
    simp [hvalue]

/-- The first of two assigned bare keys cannot go on in the second one. -/
theorem assigns_assignment_iff {other : String} (hkey : IsBareKey key) (hother : IsBareKey other)
    (hblank : ∀ c ∈ blank, Text.isBlank c = true) :
    assigns key.toList (other.toList ++ (blank ++ '=' :: value)) = true ↔ other = key := by
  rw [assigns_iff]
  constructor
  · rintro ⟨blank', value', hblank', hline⟩
    have hread := congrArg (List.takeWhile isBareKeyChar) hline
    rw [takeWhile_isBareKeyChar hother hblank, takeWhile_isBareKeyChar hkey hblank'] at hread
    exact String.toList_inj.mp hread
  · rintro rfl
    exact ⟨blank, value, hblank, rfl⟩

theorem isHeaderLine_of_isBareKey (hkey : IsBareKey key) (rest : List Char) :
    isHeaderLine (key.toList ++ rest) = false := by
  obtain ⟨c, s, hcons, hbare⟩ := hkey.exists_cons
  have hc : c ≠ '[' := Text.ne_of_class hbare (by decide)
  rw [hcons, List.cons_append, isHeaderLine]
  · exact fun s heq => hc (List.cons.inj heq).1
  · exact fun s heq => hc (List.cons.inj heq).1

/-! ## Headers -/

section Header

variable {inner tail : List Char}

/-- What stands between the brackets of a header opens no array of tables. -/
theorem isHeaderLine_bracketed (h : ∀ c ∈ inner, c ≠ '[') :
    isHeaderLine ('[' :: (inner ++ ']' :: tail)) = true := by
  cases inner with
  | nil => rfl
  | cons c inner =>
    rw [List.cons_append, isHeaderLine]
    exact fun s heq => h c List.mem_cons_self (List.cons.inj heq).1

theorem headerName_bracketed (hopen : ∀ c ∈ inner, c ≠ '[') (hclose : ∀ c ∈ inner, c ≠ ']') :
    headerName ('[' :: (inner ++ ']' :: tail))
      = Text.trimBy (· == '"') (Text.trim inner) := by
  have hhead : (inner ++ ']' :: tail).dropWhile (· == '[') = inner ++ ']' :: tail := by
    refine Text.dropWhile_eq_self_iff.mpr fun c hc => beq_eq_false_iff_ne.mpr ?_
    cases inner with
    | nil =>
      obtain rfl : ']' = c := Option.some.inj hc
      decide
    | cons d inner =>
      obtain rfl : d = c := Option.some.inj hc
      exact hopen d List.mem_cons_self
  have hinner : (inner ++ ']' :: tail).takeWhile (· != ']') = inner := by
    rw [List.takeWhile_append_of_pos (fun c hc => bne_iff_ne.mpr (hclose c hc)),
      List.takeWhile_cons_of_neg (by decide), List.append_nil]
  rw [headerName, List.dropWhile_cons_of_pos rfl, hhead, hinner]

/-- A name with or without quotes has no other characters than its own and the
    quote. -/
theorem forall_mem_word {word : List Char} {p : Char → Prop}
    (hword : word = name.toList ∨ word = ['"'] ++ name.toList ++ ['"']) (hquote : p '"')
    (hname : ∀ c ∈ name.toList, p c) : ∀ c ∈ word, p c := by
  rcases hword with rfl | rfl
  · exact hname
  · simp only [List.forall_mem_append, List.forall_mem_singleton]
    exact ⟨⟨hquote, hname⟩, hquote⟩

theorem LineForm.Surrounds.trimBy_eq (h : Surrounds inner name) (hname : IsBareKey name) :
    Text.trimBy (· == '"') (Text.trim inner) = name.toList := by
  obtain ⟨front, word, back, hfront, hback, hword, rfl⟩ := h
  have hblank : ∀ c ∈ name.toList, Text.isBlank c = false := fun c hc =>
    not_isBlank_of_isBareKeyChar (hname.isBareKeyChar c hc)
  have hquote : ∀ c ∈ name.toList, (c == '"') = false := fun c hc =>
    beq_eq_false_iff_ne.mpr (Text.ne_of_class (hname.isBareKeyChar c hc) (by decide))
  have hname : Text.trimBy (· == '"') name.toList = name.toList := Text.trimBy_eq_self hquote
  have htrim : Text.trim word = word :=
    Text.trimBy_eq_self (forall_mem_word hword (by decide) hblank)
  rw [Text.trim, Text.trimBy_append hfront hback htrim]
  rcases hword with rfl | rfl
  · exact hname
  · exact Text.trimBy_append (by simp) (by simp) hname

/-- A bracket is neither white space nor a quote, and it stands in no bare
    key. -/
theorem LineForm.Surrounds.ne_of_mem (h : Surrounds inner name) (hname : IsBareKey name)
    {bracket : Char} (hbracket : bracket = '[' ∨ bracket = ']') : ∀ c ∈ inner, c ≠ bracket := by
  obtain ⟨front, word, back, hfront, hback, hword, rfl⟩ := h
  have hclasses : Text.isBlank bracket = false ∧ isBareKeyChar bracket = false
      ∧ '"' ≠ bracket := by
    rcases hbracket with rfl | rfl <;> decide
  obtain ⟨hblank, hbare, hquote⟩ := hclasses
  have hword : ∀ c ∈ word, c ≠ bracket := forall_mem_word hword hquote fun c hc =>
    Text.ne_of_class (hname.isBareKeyChar c hc) hbare
  simp only [List.forall_mem_append]
  exact ⟨⟨fun c hc => Text.ne_of_class (hfront c hc) hblank, hword⟩,
    fun c hc => Text.ne_of_class (hback c hc) hblank⟩

end Header

/-! ## Lines of a form -/

variable {form : LineForm}

theorem LineForm.Writes.isHeaderLine_eq (h : form.Writes line) :
    isHeaderLine line = form.name?.isSome := by
  cases h with
  | empty => rfl
  | comment text => rfl
  | header hname hinner htail =>
    exact isHeaderLine_bracketed (hinner.ne_of_mem hname (.inl rfl))
  | assignment hkey hblank => exact isHeaderLine_of_isBareKey hkey _

theorem LineForm.Writes.headerName_eq (h : (LineForm.header name).Writes line) :
    headerName line = name.toList := by
  cases h with
  | header hname hinner htail =>
    rw [headerName_bracketed (hinner.ne_of_mem hname (.inl rfl))
      (hinner.ne_of_mem hname (.inr rfl)), hinner.trimBy_eq hname]

theorem LineForm.Writes.assigns_iff (h : form.Writes line) (hform : form.name? = none)
    (hkey : IsBareKey key) : assigns key.toList line = true ↔ form = .assignment key := by
  obtain ⟨c, s, hcons, hbare⟩ := hkey.exists_cons
  cases h with
  | empty => simp [assigns, hcons, Text.stripStart?]
  | comment text =>
    have hc : c ≠ '#' := Text.ne_of_class hbare (by decide)
    simp [assigns, hcons, Text.stripStart?, hc]
  | header hname hinner htail => contradiction
  | assignment hother hblank =>
    rw [assigns_assignment_iff hkey hother hblank, LineForm.assignment.injEq]

end Line

/-! ## The search -/

section Search

variable {content sectionName key : String} {forms : List LineForm} {form : LineForm}
  {lines : List (List Char)} {line : List Char}

open LineForm

/-- What one line does to the search: it ends it, or it is passed over and may
    give the name of the section in which the search goes on. -/
theorem lineOfKey_cons (hkey : IsBareKey key) (hline : form.Writes (Text.trim line))
    (current : Option String) (number : Nat) :
    lineOfKey (some sectionName.toList) key.toList (current.map String.toList) number
        (line :: lines)
      = if form = assignment key ∧ current = some sectionName then number
        else lineOfKey (some sectionName.toList) key.toList
          ((form.name?.or current).map String.toList) (number + 1) lines := by
  have hcurrent : current.map String.toList = some sectionName.toList ↔
      current = some sectionName := by
    cases current <;> simp [String.toList_inj]
  rw [lineOfKey, hline.isHeaderLine_eq]
  cases hname : form.name? with
  | some name =>
    obtain rfl := name?_eq_some_iff.mp hname
    simp [hline.headerName_eq]
  | none => simp [hcurrent, hline.assigns_iff hname hkey, and_comm]

theorem isLeast_succ {p : Nat → Prop} {n : Nat} (hzero : ¬p 0)
    (h : IsLeast {i | p (i + 1)} n) : IsLeast {i | p i} (n + 1) := by
  refine ⟨h.1, fun i hi => ?_⟩
  cases i with
  | zero => exact absurd hi hzero
  | succ i => exact Nat.succ_le_succ (h.2 hi)

/-- The search gives the number of the first line that assigns the key of the
    section. -/
theorem lineOfKey_of_writes (hkey : IsBareKey key)
    (h : List.Forall₂ (fun form line => form.Writes (Text.trim line)) forms lines)
    (sectionName : String) (current : Option String) (number : Nat) :
    (∃ i, IsLeast {i | AssignsAt current forms sectionName key i} i
      ∧ lineOfKey (some sectionName.toList) key.toList (current.map String.toList) number lines
        = number + i)
    ∨ (∀ i, ¬AssignsAt current forms sectionName key i)
      ∧ lineOfKey (some sectionName.toList) key.toList (current.map String.toList) number lines
        = 0 := by
  -- the section changes from line to line, so the statement is about every one to start in
  induction h generalizing current number with
  | nil =>
    refine .inr ⟨?_, rfl⟩
    intro i hi
    simp [AssignsAt] at hi
  | @cons form line forms lines hline hlines ih =>
    rw [lineOfKey_cons hkey hline]
    by_cases hfirst : form = assignment key ∧ current = some sectionName
    · rw [if_pos hfirst]
      exact .inl ⟨0, ⟨assignsAt_zero.mpr hfirst, fun i _ => Nat.zero_le i⟩, rfl⟩
    · rw [if_neg hfirst]
      have hzero : ¬AssignsAt current (form :: forms) sectionName key 0 :=
        fun h => hfirst (assignsAt_zero.mp h)
      -- what is found below has one line more above it
      rcases ih (form.name?.or current) (number + 1) with ⟨i, hleast, hfound⟩ | ⟨hnone, hfound⟩
      · simp only [← assignsAt_succ] at hleast
        refine .inl ⟨i + 1, isLeast_succ hzero hleast, ?_⟩
        rw [hfound]
        omega
      · refine .inr ⟨?_, hfound⟩
        intro i hassigns
        cases i with
        | zero => exact hzero hassigns
        | succ i => exact hnone i (assignsAt_succ.mp hassigns)

/-- A key of a section is cut apart again at its only dot that counts. -/
theorem findKeyLine_dotted (hkey : IsBareKey key) (content sectionName : String) :
    findKeyLine content (sectionName ++ "." ++ key)
      = lineOfKey (some sectionName.toList) key.toList none 1 (Text.lines content.toList) := by
  have hdot : '.' ∉ key.toList := fun h =>
    Text.ne_of_class (hkey.isBareKeyChar _ h) (by decide) rfl
  have hchars : (sectionName ++ "." ++ key).toList = sectionName.toList ++ '.' :: key.toList := by
    simp
  rw [findKeyLine, hchars, Text.splitLast?_append hdot]

/-- In a plainly written file the line reported for the key of a section is the
    first one that assigns the key with a header of the section as the last one
    above it, and 0 if there is no such line.  A line on which another key
    stands, such as one that begins with the key, or above which another header
    or none stands, is not reported. -/
theorem findKeyLine_of_writesLines (h : WritesLines forms content) (hkey : IsBareKey key) :
    (IsLeast {number | AssignsOn forms sectionName key number}
        (findKeyLine content (sectionName ++ "." ++ key))
      ∨ (∀ number, ¬AssignsOn forms sectionName key number)
        ∧ findKeyLine content (sectionName ++ "." ++ key) = 0)
    ∧ ∀ i form, forms[i]? = some form →
        form ≠ assignment key ∨ lastName? none (forms.take i) ≠ some sectionName →
        findKeyLine content (sectionName ++ "." ++ key) ≠ i + 1 := by
  have hsearch := lineOfKey_of_writes hkey h sectionName none 1
  rw [Option.map_none, ← findKeyLine_dotted hkey content sectionName] at hsearch
  rcases hsearch with ⟨i, hleast, hfound⟩ | ⟨hnone, hfound⟩
  · simp only [← assignsOn_succ_iff] at hleast
    rw [hfound, Nat.add_comm 1 i]
    refine ⟨.inl (isLeast_succ not_assignsOn_zero hleast), ?_⟩
    intro j form hform hother hj
    obtain rfl : i = j := Nat.succ.inj hj
    obtain ⟨hassigns, hname⟩ := assignsOn_succ_iff.mp hleast.1
    rcases hother with hother | hother
    · exact hother (Option.some.inj (hform.symm.trans hassigns))
    · exact hother hname
  · refine ⟨.inr ⟨?_, hfound⟩, ?_⟩
    · intro number hassigns
      cases number with
      | zero => exact not_assignsOn_zero hassigns
      | succ i => exact hnone i (assignsOn_succ_iff.mp hassigns)
    · intro i form _ _
      rw [hfound]
      exact (Nat.succ_ne_zero i).symm

/-- A file with two headers of one section, and with the key also before the first
    header, in another section, in a comment and as the start of another key. -/
def siteFile : String :=
  "port = 0\n[site] # port = 1\nports = [2]\n[ \"edge\" ]\nport = 3\n# [edge]\n[site]\n\tport=4\n"

/-- What the lines of the file are. -/
def siteForms : List LineForm :=
  [assignment "port", header "site", assignment "ports", header "edge", assignment "port", quiet,
    header "site", assignment "port"]

theorem findKeyLine_of_writesLines_siteFile :
    WritesLines siteForms siteFile ∧ IsBareKey "port" ∧ findKeyLine siteFile "site.port" = 8
      ∧ IsLeast {number | AssignsOn siteForms "site" "port" number} 8 := by
  have hport : IsBareKey "port" := by decide
  have hforms : WritesLines siteForms siteFile := by
    have hlines : (Text.lines siteFile.toList).map Text.trim
        = ["port".toList ++ ([' '] ++ '=' :: " 0".toList),
          '[' :: ("site".toList ++ ']' :: " # port = 1".toList),
          "ports".toList ++ ([' '] ++ '=' :: " [2]".toList),
          '[' :: (" \"edge\" ".toList ++ ']' :: []),
          "port".toList ++ ([' '] ++ '=' :: " 3".toList),
          '#' :: " [edge]".toList,
          '[' :: ("site".toList ++ ']' :: []),
          "port".toList ++ ([] ++ '=' :: "4".toList)] := by decide +kernel
    have hspace : ∀ c ∈ [' '], Text.isBlank c = true := List.forall_mem_singleton.mpr rfl
    have hnone : ∀ c ∈ [], Text.isBlank c = true := List.forall_mem_nil _
    have hend : EndsHeader [] := ⟨[], [], hnone, rfl, .inl rfl⟩
    have hcomment : EndsHeader " # port = 1".toList := ⟨[' '], _, hspace, rfl, .inr ⟨_, rfl⟩⟩
    have hsite : Surrounds "site".toList "site" := ⟨[], _, [], hnone, hnone, .inl rfl, rfl⟩
    have hedge : Surrounds " \"edge\" ".toList "edge" :=
      ⟨[' '], _, [' '], hspace, hspace, .inr rfl, rfl⟩
    rw [WritesLines, ← List.forall₂_map_right_iff, hlines]
    exact .cons (.assignment hport hspace)
      (.cons (.header (by decide) hsite hcomment)
      (.cons (.assignment (by decide) hspace)
      (.cons (.header (by decide) hedge hend)
      (.cons (.assignment hport hspace)
      (.cons (.comment _)
      (.cons (.header (by decide) hsite hend)
      (.cons (.assignment hport hnone) .nil)))))))
  have hfound : findKeyLine siteFile "site.port" = 8 := by decide +kernel
  rcases (findKeyLine_of_writesLines hforms hport).1 with hleast | ⟨-, hnone⟩
  · exact ⟨hforms, hport, hfound, hfound ▸ hleast⟩
  · exact absurd (hfound.symm.trans hnone) (by decide)

end Search

end LayeredConfig
