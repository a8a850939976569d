import Bench65.Proofs.Lookup
import Bench65.Proofs.Text.Fields
import Bench65.Proofs.Text.Number
import Bench65.Symbols
import Mathlib.Data.List.ReduceOption
import Mathlib.Data.String.Basic

/-!
# Label files

* `label_file_grammar`: a label file is read if and only if each of its lines is as `Line` says, and
  what is read is the table of their labels (`Tabulates`). Otherwise the first line that is not is
  reported. A table that is written down is read back.

What a line says is settled by its fields (`line_iff`), and a file by its lines, one after the
other (`addLines_eq_ok_iff`, `addLines_of_malformed`).
-/

namespace Bench65.Symbols

/-! ### The grammar -/

/-- An address: a hexadecimal number, before which the mark of the address space may stand. -/
def IsAddress (field : List Char) (a : UInt16) : Prop :=
  ∃ mark number, field = mark ++ number ∧ (mark = [] ∨ mark = ['C', ':']) ∧
    Number.IsNumber number a.toNat

/-- A name, before which one dot may stand; a name that starts with a dot needs it. -/
structure IsName (field : List Char) (name : String) : Prop where
  isField : IsField field
  name_ne_empty : name ≠ ""
  dot : field = '.' :: name.toList ∨ field = name.toList ∧ field.head? ≠ some '.'

/-- Blanks between two fields. -/
structure Gap (s : List Char) : Prop where
  blanks : Blanks s
  ne_nil : s ≠ []

/-- A line of a label file and the label that it defines, if it defines one. -/
inductive Line : List Char → Option (String × UInt16) → Prop
  /-- A line without fields. -/
  | empty {s : List Char} (hblanks : Blanks s) : Line s none
  /-- A comment. -/
  | comment {indent rest : List Char} {mark : Char} (hindent : Blanks indent)
      (hmark : mark = '#' ∨ mark = ';') : Line (indent ++ mark :: rest) none
  /-- A label. -/
  | label {indent gap gap' tail address field : List Char} {name : String} {a : UInt16}
      (hindent : Blanks indent) (hgap : Gap gap) (hgap' : Gap gap') (htail : Blanks tail)
      (haddress : IsAddress address a) (hname : IsName field name) :
      Line (indent ++ (['a', 'l'] ++ (gap ++ (address ++ (gap' ++ (field ++ tail))))))
        (some (name, a))

/-- The table of some labels, of which the last counts where several have one name. -/
structure Tabulates (labels : List (String × UInt16)) (s : Symbols) : Prop where
  /-- The names are in order, each once. -/
  ordered : s.entries.Pairwise fun x y => x.1 < y.1
  /-- A name has the address of the last label of this name. -/
  get?_eq : ∀ name, s.get? name = labels.reverse.lookup name

/-! ### Fields of a line -/

variable {field line : List Char} {a : UInt16} {name : String}

theorem exists_dropSpaceMark (field : List Char) :
    ∃ mark, (mark = [] ∨ mark = ['C', ':']) ∧ field = mark ++ dropSpaceMark field := by
  unfold dropSpaceMark
  split
  · exact ⟨['C', ':'], .inr rfl, rfl⟩
  · exact ⟨[], .inl rfl, rfl⟩

theorem dropSpaceMark_number {mark number : List Char} {n : Nat}
    (hmark : mark = [] ∨ mark = ['C', ':']) (hnumber : Number.IsNumber number n) :
    dropSpaceMark (mark ++ number) = number := by
  rcases hmark with rfl | rfl
  · rw [List.nil_append, dropSpaceMark]
    rintro rest rfl
    exact (hnumber.forall_mem ':' (by simp)).2 rfl
  · rfl

/-- An address is read within 32 bits first, and then within 16. -/
theorem readAddress_eq_ok_iff : readAddress field = .ok a ↔ IsAddress field a := by
  have ha : a.toNat ≤ 0xFFFF := Nat.le_of_lt_succ a.toNat_lt
  rw [readAddress]
  constructor
  · intro h
    split at h
    · cases h
    · rename_i n hread
      split_ifs at h with hle
      obtain rfl := Except.ok.inj h
      obtain ⟨mark, hmark, hfield⟩ := exists_dropSpaceMark field
      refine ⟨mark, _, hfield, hmark, ?_⟩
      rw [UInt16.toNat_ofNat_of_lt' (Nat.lt_succ_of_le hle)]
      exact (Number.read?_eq_some_iff.mp hread).1
  · rintro ⟨mark, number, rfl, hmark, hnumber⟩
    -- the reader of numbers goes up to 32 bits, beyond all addresses
    have hread : Number.read? 16 0xFFFFFFFF number = some a.toNat :=
      Number.read?_eq_some_iff.mpr ⟨hnumber, ha.trans (by decide)⟩
    rw [dropSpaceMark_number hmark hnumber, hread]
    dsimp only
    rw [if_pos ha, UInt16.ofNat_toNat]

theorem IsAddress.isField (h : IsAddress field a) : IsField field := by
  obtain ⟨mark, number, rfl, hmark, hnumber⟩ := h
  refine ⟨fun hnil => hnumber.ne_nil (List.append_eq_nil_iff.mp hnil).2, fun c hc => ?_⟩
  rcases List.mem_append.mp hc with hc | hc
  · have hspace : IsField ['C', ':'] := by
      decide
    rcases hmark with rfl | rfl
    · cases hc
    · exact hspace.isBlank_eq_false c hc
  · exact (hnumber.forall_mem c hc).1

theorem readName_dot (rest : List Char) : readName ('.' :: rest) =
    if rest = [] then .error .emptyName else .ok (String.ofList rest) := by
  cases rest with
  | nil => rfl
  | cons c rest => rfl

theorem readName_of_ne (hne : field ≠ []) (hdot : field.head? ≠ some '.') :
    readName field = .ok (String.ofList field) := by
  unfold readName
  split
  · rename_i hnil
    split at hnil
    · exact absurd rfl hdot
    · exact absurd hnil hne
  · split
    · exact absurd rfl hdot
    · rfl

theorem readName_eq_ok_iff (h : IsField field) :
    readName field = .ok name ↔ IsName field name := by
  by_cases hdot : field.head? = some '.'
  · obtain ⟨rest, rfl⟩ := List.head?_eq_some_iff.mp hdot
    -- behind a dot anything is a name except nothing
    have hname : IsName ('.' :: rest) name ↔ rest ≠ [] ∧ rest = name.toList := by
      constructor
      · rintro ⟨-, hne, heq | ⟨-, hnot⟩⟩
        · obtain rfl := (List.cons.inj heq).2
          exact ⟨fun hnil => hne (String.toList_eq_nil_iff.mp hnil), rfl⟩
        · exact absurd rfl hnot
      · rintro ⟨hne, rfl⟩
        exact ⟨h, fun hempty => hne (String.toList_eq_nil_iff.mpr hempty), .inl rfl⟩
    rw [readName_dot, hname]
    by_cases hrest : rest = []
    · simp [hrest]
    · simp [hrest, ← String.toList_inj]
  · have hname : IsName field name ↔ field = name.toList := by
      constructor
      · rintro ⟨-, -, rfl | ⟨heq, -⟩⟩
        · exact absurd rfl hdot
        · exact heq
      · intro heq
        refine ⟨h, fun hempty => ?_, .inr ⟨heq, hdot⟩⟩
        rw [hempty] at heq
        exact h.ne_nil heq
    rw [readName_of_ne h.ne_nil hdot, hname, Except.ok.injEq, ← String.toList_inj,
      String.toList_ofList]

/-! ### Lines -/

/-- What a line contributes, as it is read. -/
def content (line : List Char) : Except LabelFault (Option (String × UInt16)) :=
  if isSkipped (fields line) then .ok none else (readLabel (fields line)).map some

theorem readLabel_eq_ok_iff {fs : List (List Char)} {label : String × UInt16} :
    readLabel fs = .ok label ↔ ∃ address field, fs = [['a', 'l'], address, field] ∧
      readAddress address = .ok label.2 ∧ readName field = .ok label.1 := by
  constructor
  · intro h
    unfold readLabel at h
    split at h
    · rename_i address field
      cases ha : readAddress address with
      | error fault =>
        rw [ha] at h
        cases h
      | ok a =>
        cases hname : readName field with
        | error fault =>
          rw [ha, hname] at h
          cases h
        | ok name =>
          rw [ha, hname] at h
          obtain rfl := Except.ok.inj h
          exact ⟨address, field, rfl, ha, hname⟩
    all_goals cases h
  · rintro ⟨address, field, rfl, ha, hname⟩
    rw [readLabel, ha, hname]
    rfl

theorem isSkipped_iff {fs : List (List Char)} : isSkipped fs = true ↔
    fs = [] ∨ ∃ mark rest others, fs = (mark :: rest) :: others ∧ (mark = '#' ∨ mark = ';') := by
  constructor
  · intro h
    unfold isSkipped at h
    split at h
    · exact .inl rfl
    · exact .inr ⟨_, _, _, rfl, .inl rfl⟩
    · exact .inr ⟨_, _, _, rfl, .inr rfl⟩
    · cases h
  · rintro (rfl | ⟨mark, rest, others, rfl, rfl | rfl⟩)
    · rfl
    · rfl
    · rfl

/-- The fields of a line that has three. -/
theorem fields_label {indent gap gap' tail first second third : List Char}
    (hindent : Blanks indent) (hgap : Gap gap) (hgap' : Gap gap') (htail : Blanks tail)
    (h₁ : IsField first) (h₂ : IsField second) (h₃ : IsField third) :
    fields (indent ++ (first ++ (gap ++ (second ++ (gap' ++ (third ++ tail)))))) =
      [first, second, third] := by
  have hend : startsField tail = false := by
    cases tail with
    | nil => rfl
    | cons c tail => simpa using startsField_append_of_blanks htail (List.cons_ne_nil c tail) []
  -- the fields come off the front one by one, each with the gap behind it
  rw [fields_append_of_blanks hindent,
    fields_append h₁ (startsField_append_of_blanks hgap.blanks hgap.ne_nil _),
    fields_append_of_blanks hgap.blanks,
    fields_append h₂ (startsField_append_of_blanks hgap'.blanks hgap'.ne_nil _),
    fields_append_of_blanks hgap'.blanks, fields_append h₃ hend, fields_of_blanks htail]

theorem gap_of_startsField {gap second rest : List Char} (hgap : Blanks gap)
    (hsecond : IsField second) (h : startsField (gap ++ (second ++ rest)) = false) : Gap gap := by
  refine ⟨hgap, ?_⟩
  rintro rfl
  obtain ⟨hne, hfield⟩ := hsecond
  cases second with
  | nil => exact hne rfl
  | cons c second => simp [startsField, hfield] at h

/-- What a line with three fields is made of. -/
theorem exists_of_fields_eq {first second third : List Char}
    (h : fields line = [first, second, third]) :
    ∃ indent gap gap' tail,
      line = indent ++ (first ++ (gap ++ (second ++ (gap' ++ (third ++ tail))))) ∧
        Blanks indent ∧ Gap gap ∧ Gap gap' ∧ Blanks tail ∧ IsField third := by
  obtain ⟨indent, rest, rfl, hindent, -, hstart, hrest⟩ := exists_of_fields_eq_cons h
  obtain ⟨gap, rest', rfl, hgap, hsecond, hstart', hrest'⟩ := exists_of_fields_eq_cons hrest
  obtain ⟨gap', tail, rfl, hgap', hthird, -, htail⟩ := exists_of_fields_eq_cons hrest'
  exact ⟨indent, gap, gap', tail, rfl, hindent, gap_of_startsField hgap hsecond hstart,
    gap_of_startsField hgap' hthird hstart', fields_eq_nil_iff.mp htail, hthird⟩

theorem isField_al : IsField ['a', 'l'] := by
  decide

/-- What a line says is what is read. -/
theorem content_eq_ok_iff {x : Option (String × UInt16)} : content line = .ok x ↔ Line line x := by
  rw [content]
  constructor
  · intro h
    split_ifs at h with hskip
    · obtain rfl := Except.ok.inj h
      rcases isSkipped_iff.mp hskip with hnil | ⟨mark, rest, others, hfields, hmark⟩
      · exact .empty (fields_eq_nil_iff.mp hnil)
      · obtain ⟨indent, tail, rfl, hindent, -⟩ := exists_of_fields_eq_cons hfields
        exact .comment hindent hmark
    · cases hlabel : readLabel (fields line) with
      | error fault =>
        rw [hlabel] at h
        cases h
      | ok label =>
        rw [hlabel] at h
        obtain rfl := Except.ok.inj h
        obtain ⟨address, field, hfields, haddress, hname⟩ := readLabel_eq_ok_iff.mp hlabel
        obtain ⟨indent, gap, gap', tail, rfl, hindent, hgap, hgap', htail, hfield⟩ :=
          exists_of_fields_eq hfields
        exact .label hindent hgap hgap' htail (readAddress_eq_ok_iff.mp haddress)
          ((readName_eq_ok_iff hfield).mp hname)
  · intro h
    cases h with
    | empty hblanks =>
      rw [fields_of_blanks hblanks]
      rfl
    | @comment indent rest mark hindent hmark =>
      -- a mark is no blank, so it begins a field
      have hblank : isBlank mark = false := by
        rcases hmark with rfl | rfl
        · decide
        · decide
      obtain ⟨field, others, hfields⟩ := exists_fields_cons hblank rest
      rw [fields_append_of_blanks hindent, hfields,
        if_pos (isSkipped_iff.mpr (.inr ⟨mark, field, others, rfl, hmark⟩))]
    | @label indent gap gap' tail address field name a hindent hgap hgap' htail haddress hname =>
      have hlabel : readLabel [['a', 'l'], address, field] = .ok (name, a) :=
        readLabel_eq_ok_iff.mpr ⟨address, field, rfl, readAddress_eq_ok_iff.mpr haddress,
          (readName_eq_ok_iff hname.isField).mpr hname⟩
      rw [fields_label hindent hgap hgap' htail isField_al haddress.isField hname.isField, hlabel]
      rfl

/-! ### Tables -/

variable {labels : List (String × UInt16)} {entries : List (String × UInt16)} {s s' : Symbols}

theorem lookup_insertEntry (name : String) (a : UInt16) (entries : List (String × UInt16))
    (other : String) : (insertEntry name a entries).lookup other =
      if other = name then some a else entries.lookup other := by
  induction entries with
  | nil => rw [insertEntry, lookup_cons_eq]
  | cons entry rest ih =>
    obtain ⟨first, b⟩ := entry
    rw [insertEntry, lookup_cons_eq]
    by_cases hname : name = first
    · subst hname
      rw [if_pos rfl, lookup_cons_eq]
      by_cases hother : other = name
      · rw [if_pos hother, if_pos hother]
      · rw [if_neg hother, if_neg hother, if_neg hother]
    by_cases hlt : name < first
    · rw [if_neg hname, if_pos hlt, lookup_cons_eq, lookup_cons_eq]
    · -- the name inserted is not that of the entry passed
      rw [if_neg hname, if_neg hlt, lookup_cons_eq, ih]
      by_cases hother : other = name
      · subst hother
        rw [if_neg hname, if_pos rfl, if_pos rfl]
      · rw [if_neg hother, if_neg hother]

theorem mem_insertEntry {x : String × UInt16} (h : x ∈ insertEntry name a entries) :
    x.1 = name ∨ x ∈ entries := by
  induction entries with
  | nil => exact .inl (congrArg Prod.fst (List.mem_singleton.mp h))
  | cons entry rest ih =>
    rw [insertEntry] at h
    split_ifs at h with hname hlt
    · rcases List.mem_cons.mp h with rfl | h
      · exact .inl rfl
      · exact .inr (List.mem_cons_of_mem _ h)
    · rcases List.mem_cons.mp h with rfl | h
      · exact .inl rfl
      · exact .inr h
    · rcases List.mem_cons.mp h with rfl | h
      · exact .inr List.mem_cons_self
      · exact (ih h).imp id (List.mem_cons_of_mem _)

theorem ordered_insertEntry (h : entries.Pairwise fun x y => x.1 < y.1) (name : String)
    (a : UInt16) : (insertEntry name a entries).Pairwise fun x y => x.1 < y.1 := by
  induction entries with
  | nil => exact List.pairwise_singleton _ _
  | cons entry rest ih =>
    obtain ⟨hfirst, hrest⟩ := List.pairwise_cons.mp h
    rw [insertEntry]
    split_ifs with hname hlt
    · exact List.pairwise_cons.mpr ⟨hname ▸ hfirst, hrest⟩
    · refine List.pairwise_cons.mpr ⟨?_, h⟩
      exact List.forall_mem_cons.mpr ⟨hlt, fun x hx => hlt.trans (hfirst x hx)⟩
    · refine List.pairwise_cons.mpr ⟨fun x hx => ?_, ih hrest⟩
      rcases mem_insertEntry hx with hxname | hx
      · rw [hxname]
        exact lt_of_le_of_ne (not_lt.mp hlt) (Ne.symm hname)
      · exact hfirst x hx

theorem tabulates_empty : Tabulates [] empty :=
  ⟨List.Pairwise.nil, fun _ => rfl⟩

theorem Tabulates.insert (h : Tabulates labels s) (name : String) (a : UInt16) :
    Tabulates (labels ++ [(name, a)]) (s.insert name a) := by
  refine ⟨ordered_insertEntry h.ordered name a, fun other => ?_⟩
  rw [List.reverse_append, List.reverse_singleton, List.singleton_append, lookup_cons_eq,
    ← h.get?_eq]
  exact lookup_insertEntry name a s.entries other

theorem nodup_names (h : entries.Pairwise fun x y => x.1 < y.1) :
    (entries.map Prod.fst).Nodup :=
  List.pairwise_map.mpr (h.imp ne_of_lt)

/-- There is only one table of some labels. -/
theorem Tabulates.unique (h : Tabulates labels s) (h' : Tabulates labels s') : s = s' := by
  obtain ⟨entries⟩ := s
  obtain ⟨entries'⟩ := s'
  -- both have the members that their lookups show, and an order leaves no choice beyond that
  have hmem : ∀ x, x ∈ entries ↔ x ∈ entries' := by
    rintro ⟨name, a⟩
    have hsame : entries.lookup name = entries'.lookup name :=
      (h.get?_eq name).trans (h'.get?_eq name).symm
    rw [← lookup_eq_some_iff_mem (nodup_names h.ordered), hsame,
      lookup_eq_some_iff_mem (nodup_names h'.ordered)]
  have hperm : entries.Perm entries' :=
    (List.perm_ext_iff_of_nodup (List.Nodup.of_map _ (nodup_names h.ordered))
      (List.Nodup.of_map _ (nodup_names h'.ordered))).mpr hmem
  have hentries := hperm.eq_of_pairwise (fun x y _ _ hxy hyx => absurd hxy hyx.not_gt)
    h.ordered h'.ordered
  exact congrArg Symbols.mk hentries

/-! ### Files -/

theorem lines_eq_splitOn (text : List Char) : lines text = text.splitOn '\n' := by
  rw [List.splitOn_eq_splitOnP]
  induction text with
  | nil => rfl
  | cons c rest ih =>
    -- a line break starts a line, and any other character goes to the first one
    rw [lines, List.splitOnP_cons_eq_if_modifyHead, ih]
    by_cases hc : c = '\n'
    · simp [hc]
    · cases hrest : rest.splitOnP (· == '\n') with
      | nil => exact absurd hrest (List.splitOnP_ne_nil _ _)
      | cons line others => simp [hc]

theorem addLines_cons (s : Symbols) (number : Nat) (line : List Char) (rest : List (List Char)) :
    addLines s number (line :: rest) =
      match content line with
      | .ok none => addLines s (number + 1) rest
      | .ok (some label) => addLines (s.insert label.1 label.2) (number + 1) rest
      | .error fault => .error (.badLabel number fault) := by
  rw [addLines, content]
  by_cases hskip : isSkipped (fields line) = true
  · rw [if_pos hskip, if_pos hskip]
  · rw [if_neg hskip, if_neg hskip]
    cases readLabel (fields line) with
    | error fault => rfl
    | ok label => rfl

/-- From the table of the labels so far the lines lead to the table of all labels. -/
theorem addLines_eq_ok {ls : List (List Char)} {contents : List (Option (String × UInt16))}
    (hlines : List.Forall₂ Line ls contents) (h : Tabulates labels s) (number : Nat) :
    ∃ s', addLines s number ls = .ok s' ∧ Tabulates (labels ++ contents.reduceOption) s' := by
  -- each line leads from a table to a table, so the induction is for any table to start from
  induction hlines generalizing labels s number with
  | nil => exact ⟨s, rfl, by simpa using h⟩
  | @cons line x rest contents hline hrest ih =>
    rw [addLines_cons, content_eq_ok_iff.mpr hline]
    cases x with
    | none =>
      obtain ⟨s', hs', htable⟩ := ih h (number + 1)
      exact ⟨s', hs', htable⟩
    | some label =>
      obtain ⟨s', hs', htable⟩ := ih (h.insert label.1 label.2) (number + 1)
      refine ⟨s', hs', ?_⟩
      rw [List.reduceOption_cons_of_some]
      simpa using htable

/-- The first line that is malformed is reported, whatever follows. -/
theorem addLines_of_malformed {before : List (List Char)} {fault : LabelFault}
    (hbefore : ∀ l ∈ before, ∃ x, Line l x) (hline : content line = .error fault)
    (s : Symbols) (number : Nat) (after : List (List Char)) :
    addLines s number (before ++ line :: after) =
      .error (.badLabel (number + before.length) fault) := by
  -- the lines in front fill the table, which is lost, and move the number on
  induction before generalizing s number with
  | nil =>
    rw [List.nil_append, addLines_cons, hline]
    rfl
  | cons l before ih =>
    obtain ⟨⟨x, hx⟩, hrest⟩ := List.forall_mem_cons.mp hbefore
    rw [List.cons_append, addLines_cons, content_eq_ok_iff.mpr hx, List.length_cons,
      ← Nat.add_assoc, Nat.add_right_comm]
    cases x with
    | none => exact ih hrest s (number + 1)
    | some label => exact ih hrest _ (number + 1)

/-- A line is well-formed if it says something. -/
def WellFormed (line : List Char) : Prop :=
  ∃ x, Line line x

theorem exists_fault (h : ¬ WellFormed line) : ∃ fault, content line = .error fault := by
  cases hcontent : content line with
  | error fault => exact ⟨fault, rfl⟩
  | ok x => exact absurd ⟨x, content_eq_ok_iff.mp hcontent⟩ h

theorem exists_contents {ls : List (List Char)} (h : ∀ l ∈ ls, WellFormed l) :
    ∃ contents, List.Forall₂ Line ls contents := by
  induction ls with
  | nil => exact ⟨[], .nil⟩
  | cons l ls ih =>
    obtain ⟨⟨x, hx⟩, hrest⟩ := List.forall_mem_cons.mp h
    obtain ⟨contents, hcontents⟩ := ih hrest
    exact ⟨x :: contents, .cons hx hcontents⟩

theorem exists_first_malformed {ls : List (List Char)} (h : ¬ ∀ l ∈ ls, WellFormed l) :
    ∃ before line after, ls = before ++ line :: after ∧ (∀ l ∈ before, WellFormed l) ∧
      ¬ WellFormed line := by
  induction ls with
  | nil => exact absurd (fun _ hl => nomatch hl) h
  | cons l ls ih =>
    by_cases hl : WellFormed l
    · obtain ⟨before, line, after, rfl, hbefore, hline⟩ :=
        ih fun hrest => h (List.forall_mem_cons.mpr ⟨hl, hrest⟩)
      exact ⟨l :: before, line, after, rfl, List.forall_mem_cons.mpr ⟨hl, hbefore⟩, hline⟩
    · exact ⟨[], l, ls, rfl, List.forall_mem_nil _, hl⟩

variable {text : String}

theorem parse_eq_addLines (text : String) :
    parse text = addLines empty 1 (text.toList.splitOn '\n') := by
  rw [parse, lines_eq_splitOn]

theorem parse_of_malformed {before after : List (List Char)} {fault : LabelFault}
    (htext : text.toList.splitOn '\n' = before ++ line :: after)
    (hbefore : ∀ l ∈ before, WellFormed l) (hline : content line = .error fault) :
    parse text = .error (.badLabel (before.length + 1) fault) := by
  rw [parse_eq_addLines, htext, addLines_of_malformed hbefore hline, Nat.add_comm]

theorem forall_wellFormed_of_parse (h : parse text = .ok s) :
    ∀ l ∈ text.toList.splitOn '\n', WellFormed l := by
  by_contra hnot
  obtain ⟨before, line, after, htext, hbefore, hline⟩ := exists_first_malformed hnot
  obtain ⟨fault, hfault⟩ := exists_fault hline
  rw [parse_of_malformed htext hbefore hfault] at h
  cases h

theorem parse_eq_ok_iff : parse text = .ok s ↔
    ∃ contents, List.Forall₂ Line (text.toList.splitOn '\n') contents ∧
      Tabulates contents.reduceOption s := by
  constructor
  · intro h
    obtain ⟨contents, hcontents⟩ := exists_contents (forall_wellFormed_of_parse h)
    obtain ⟨s', hs', htable⟩ := addLines_eq_ok hcontents tabulates_empty 1
    rw [← parse_eq_addLines, h] at hs'
    obtain rfl := Except.ok.inj hs'
    exact ⟨contents, hcontents, htable⟩
  · rintro ⟨contents, hcontents, htable⟩
    -- the table that is read tabulates the same labels, so it is the given one
    obtain ⟨s', hs', htable'⟩ := addLines_eq_ok hcontents tabulates_empty 1
    rw [parse_eq_addLines, hs', htable'.unique htable]

/-! ### Written tables -/

/-- The line of a label, as linkers write it. -/
def labelLine (label : String × UInt16) : String :=
  "al " ++ Hex.padded true 6 label.2.toNat ++ " ." ++ label.1

/-- A label file. -/
def labelFile (labels : List (String × UInt16)) : String :=
  String.join (labels.map fun label => labelLine label ++ "\n")

theorem isAddress_padded (a : UInt16) : IsAddress (Hex.padded true 6 a.toNat).toList a :=
  ⟨[], (Hex.padded true 6 a.toNat).toList, (List.nil_append _).symm, .inl rfl,
    Number.isNumber_padded true 6 a.toNat⟩

theorem isName_dot (h : IsField name.toList) : IsName ('.' :: name.toList) name where
  isField := ⟨List.cons_ne_nil _ _, List.forall_mem_cons.mpr ⟨by decide, h.isBlank_eq_false⟩⟩
  name_ne_empty := mt String.toList_eq_nil_iff.mpr h.ne_nil
  dot := .inl rfl

theorem line_labelLine {label : String × UInt16} (h : IsField label.1.toList) :
    Line (labelLine label).toList (some label) := by
  have hgap : Gap [' '] := ⟨by decide, List.cons_ne_nil _ _⟩
  have hline := Line.label blanks_nil hgap hgap blanks_nil (isAddress_padded label.2)
    (isName_dot h)
  simpa [labelLine] using hline

/-- A label that is written down takes one line. -/
theorem not_mem_labelLine {label : String × UInt16} (h : IsField label.1.toList) :
    '\n' ∉ (labelLine label).toList := by
  have hblank : isBlank '\n' = true := by
    decide
  have haddress : '\n' ∉ (Hex.padded true 6 label.2.toNat).toList := by
    intro hmem
    rw [(isAddress_padded label.2).isField.isBlank_eq_false _ hmem] at hblank
    cases hblank
  have hname : '\n' ∉ label.1.toList := by
    intro hmem
    rw [h.isBlank_eq_false _ hmem] at hblank
    cases hblank
  simp [labelLine, haddress, hname]

theorem splitOn_labelFile {labels : List (String × UInt16)} (h : ∀ x ∈ labels, IsField x.1.toList) :
    (labelFile labels).toList.splitOn '\n' =
      labels.map (fun label => (labelLine label).toList) ++ [[]] := by
  rw [List.splitOn_eq_splitOnP]
  induction labels with
  | nil => rfl
  | cons label labels ih =>
    obtain ⟨hlabel, hrest⟩ := List.forall_mem_cons.mp h
    -- no label has a line break in its line, so the first break is the one behind the line
    have hfile : (labelFile (label :: labels)).toList =
        (labelLine label).toList ++ '\n' :: (labelFile labels).toList := by
      simp [labelFile, String.join_cons]
    have hline : ∀ c ∈ (labelLine label).toList, (c == '\n') = false := fun c hc =>
      beq_eq_false_iff_ne.mpr fun heq => not_mem_labelLine hlabel (heq ▸ hc)
    rw [hfile, List.splitOnP_append_cons_of_forall_mem hline '\n' rfl, ih hrest, List.map_cons,
      List.cons_append]

theorem forall₂_labelLine {labels : List (String × UInt16)} (h : ∀ x ∈ labels, IsField x.1.toList) :
    List.Forall₂ Line (labels.map (fun label => (labelLine label).toList) ++ [[]])
      (labels.map some ++ [none]) := by
  induction labels with
  | nil => exact .cons (.empty blanks_nil) .nil
  | cons label labels ih =>
    obtain ⟨hlabel, hrest⟩ := List.forall_mem_cons.mp h
    exact .cons (line_labelLine hlabel) (ih hrest)

/-- A table is the table of its labels, in whatever order they are. -/
theorem tabulates_of_perm {labels : List (String × UInt16)}
    (hordered : s.entries.Pairwise fun x y => x.1 < y.1) (hperm : labels.Perm s.entries) :
    Tabulates labels s := by
  refine ⟨hordered, fun name => Option.ext fun a => ?_⟩
  -- names occur once, so the last label of a name is the only one
  have hnodup : (labels.reverse.map Prod.fst).Nodup := by
    rw [List.map_reverse, List.nodup_reverse]
    exact (hperm.map Prod.fst).nodup_iff.mpr (nodup_names hordered)
  rw [get?, lookup_eq_some_iff_mem (nodup_names hordered), lookup_eq_some_iff_mem hnodup,
    List.mem_reverse, hperm.mem_iff]

theorem parse_labelFile {labels : List (String × UInt16)}
    (hordered : s.entries.Pairwise fun x y => x.1 < y.1)
    (hnames : ∀ x ∈ s.entries, IsField x.1.toList) (hperm : labels.Perm s.entries) :
    parse (labelFile labels) = .ok s := by
  have hwritable : ∀ x ∈ labels, IsField x.1.toList := fun x hx => hnames x (hperm.mem_iff.mp hx)
  have hcontents : (labels.map some ++ [none]).reduceOption = labels := by
    simp [List.reduceOption]
  rw [parse_eq_ok_iff, splitOn_labelFile hwritable]
  refine ⟨_, forall₂_labelLine hwritable, ?_⟩
  rw [hcontents]
  exact tabulates_of_perm hordered hperm

/-- **Label files are read exactly by their grammar.** A text is read if and only if all its lines
are well-formed, and then as the table of their labels; otherwise the first malformed line is
reported, whatever follows it. A table that is written down, in any order, is read back. -/
theorem label_file_grammar :
    (∀ text : String, (∃ s, parse text = .ok s) ↔
      ∀ line ∈ text.toList.splitOn '\n', WellFormed line) ∧
    (∀ (text : String) (s : Symbols), parse text = .ok s ↔
      ∃ contents, List.Forall₂ Line (text.toList.splitOn '\n') contents ∧
        Tabulates contents.reduceOption s) ∧
    (∀ line : List Char, ¬ WellFormed line → ∃ fault, ∀ (text : String) before after,
      text.toList.splitOn '\n' = before ++ line :: after → (∀ l ∈ before, WellFormed l) →
        parse text = .error (.badLabel (before.length + 1) fault)) ∧
    (∀ (s : Symbols) (labels : List (String × UInt16)),
      s.entries.Pairwise (fun x y => x.1 < y.1) → (∀ x ∈ s.entries, IsField x.1.toList) →
        labels.Perm s.entries → parse (labelFile labels) = .ok s) := by
  refine ⟨fun text => ⟨?_, fun h => ?_⟩, fun text s => parse_eq_ok_iff, fun line hline => ?_,
    fun s labels => parse_labelFile⟩
  · rintro ⟨s, hs⟩
    exact forall_wellFormed_of_parse hs
  · obtain ⟨contents, hcontents⟩ := exists_contents h
    obtain ⟨s, hs, -⟩ := addLines_eq_ok hcontents tabulates_empty 1
    exact ⟨s, (parse_eq_addLines text).trans hs⟩
  · obtain ⟨fault, hfault⟩ := exists_fault hline
    exact ⟨fault, fun text before after htext hbefore =>
      parse_of_malformed htext hbefore hfault⟩

/-- A label defined twice, a comment and different ways to write an address; an address that is no
number; a table written down in another order than its own. -/
theorem label_file_grammar_letters :
    let text := "; letters\nal C:00e000 ._putchar\r\n\n  al +0801 start\nal 0E003 _putchar "
    let table : Symbols := ⟨[("_putchar", 0xE003), ("start", 0x0801)]⟩
    parse text = .ok table ∧ (∀ line ∈ text.toList.splitOn '\n', WellFormed line) ∧
      (∃ fault, parse "al 0200 .ok\nal zz .bad\nal" = .error (.badLabel 2 fault)) ∧
      labelFile [("start", 0x0801), ("_putchar", 0xE003)] =
        "al 000801 .start\nal 00E003 ._putchar\n" ∧
      parse (labelFile [("start", 0x0801), ("_putchar", 0xE003)]) = .ok table := by
  intro text table
  obtain ⟨hread, -, hmalformed, hwritten⟩ := label_file_grammar
  have hparse : parse text = .ok table := by
    decide +kernel
  have hgood : WellFormed "al 0200 .ok".toList :=
    ⟨some ("ok", 0x0200), content_eq_ok_iff.mp (by decide +kernel)⟩
  have hcontent : content "al zz .bad".toList = .error (.badAddress "zz") := by
    decide +kernel
  have hbad : ¬ WellFormed "al zz .bad".toList := by
    rintro ⟨x, hx⟩
    rw [content_eq_ok_iff.mpr hx] at hcontent
    cases hcontent
  obtain ⟨fault, hfault⟩ := hmalformed _ hbad
  refine ⟨hparse, (hread text).mp ⟨table, hparse⟩, ⟨fault, ?_⟩, by decide +kernel, ?_⟩
  · exact hfault _ ["al 0200 .ok".toList] ["al".toList] (by decide +kernel) (by simpa using hgood)
  · exact hwritten table _ (by decide +kernel) (by decide +kernel) (List.Perm.swap ..)

end Bench65.Symbols
