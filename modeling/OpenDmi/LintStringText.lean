import OpenDmi.Lint

namespace OpenDmi

open Bytes

def lintStringMax : ℕ := 64

/-- A character is printable, or a byte of one which is not of ASCII. -/
def isPlain (b : Byte) : Bool := (0x20 ≤ b && b ≤ 0x7E) || 0x80 ≤ b

/-- What is told of a string: a text, which is filled in with its number and the ones here. -/
structure StringNote where
  format : String
  numbers : List ℕ

def tooLongNote (length : ℕ) : StringNote :=
  ⟨"string %zu is %zu characters long, expected at most %d", [length, lintStringMax]⟩

def lintStringTooLong (string : StringEntry) : Option StringNote :=
  if lintStringMax < string.raw.length then some (tooLongNote string.raw.length) else none

def nonPrintableNote (b : Byte) (position : ℕ) : StringNote :=
  ⟨"string %zu holds a non-printable character 0x%02X at position %zu", [b.toNat, position]⟩

def lintStringNonPrintable (string : StringEntry) : Option StringNote :=
  (string.raw.dropWhile isPlain).head?.map fun b =>
    nonPrintableNote b (string.raw.takeWhile isPlain).length

def blankNote : StringNote := ⟨"string %zu holds whitespace only", []⟩

def lintStringBlank (string : StringEntry) : Option StringNote :=
  if string.raw = [] ∨ string.pretty ≠ [] then none else some blankNote

def paddedNote : StringNote := ⟨"string %zu is padded with whitespace", []⟩

def lintStringPadded (string : StringEntry) : Option StringNote :=
  if string.pretty = [] then none
  else if string.raw ≠ string.pretty then some paddedNote
  else none

inductive LintStringRule
  | tooLong | nonPrintable | blank | padded
  deriving DecidableEq

def LintStringRule.code : LintStringRule → String
  | .tooLong => "string.too-long"
  | .nonPrintable => "string.non-printable"
  | .blank => "string.blank"
  | .padded => "string.padded"

def LintStringRule.note : LintStringRule → StringEntry → Option StringNote
  | .tooLong => lintStringTooLong
  | .nonPrintable => lintStringNonPrintable
  | .blank => lintStringBlank
  | .padded => lintStringPadded

def stringIssue (lint : Lint) (entity : Entity) (rule : LintStringRule) (num : ℕ)
    (note : StringNote) : LintIssue :=
  lintIssue rule.code (some entity) none (lintStringOffset lint.table entity num) note.format
    ((num :: note.numbers).map .number)

def lintStrings (lint : Lint) (entity : Entity) (rule : LintStringRule) : List LintIssue :=
  entity.strings.zipIdx.filterMap fun string =>
    (rule.note string.1).map (stringIssue lint entity rule (string.2 + 1))

def lintStringRules : List LintStringRule := [.tooLong, .nonPrintable, .blank, .padded]

def lintCheckStrings (enabled : String → Bool) (lint : Lint) (entity : Entity) : List LintIssue :=
  lintStringRules.flatMap fun rule =>
    if enabled rule.code then lintStrings lint entity rule else []

inductive TextFault (text : List Byte) : LintStringRule → StringNote → Prop
  | tooLong : lintStringMax < text.length →
      TextFault text .tooLong (tooLongNote text.length)
  | nonPrintable {before after : List Byte} {b : Byte} : text = before ++ b :: after →
      (∀ c ∈ before, isPlain c = true) → isPlain b = false →
      TextFault text .nonPrintable (nonPrintableNote b before.length)
  | blank : (∀ b ∈ text, isSpace b = true) → TextFault text .blank blankNote
  | padded {b c : Byte} : b ∈ text → isSpace b = false →
      (text.head? = some c ∨ text.getLast? = some c) → isSpace c = true →
      TextFault text .padded paddedNote

section Texts

variable {text pretty : List Byte} {string : StringEntry} {note : StringNote}

lemma Trimmed.eq_nil_iff (h : Trimmed text pretty) :
    pretty = [] ↔ ∀ b ∈ text, isSpace b = true := by
  obtain ⟨⟨lead, trail, rfl, hlead, htrail⟩, hfirst, -⟩ := h
  constructor
  · rintro rfl b hb
    rw [List.append_nil] at hb
    exact (List.mem_append.mp hb).elim (hlead b) (htrail b)
  · intro hall
    cases pretty with
    | nil => rfl
    | cons b rest =>
      have hspace := hall b (by simp)
      rw [hfirst b rfl] at hspace
      cases hspace

lemma Trimmed.ne_iff (h : Trimmed text pretty) : text ≠ pretty ↔
      ∃ c, (text.head? = some c ∨ text.getLast? = some c) ∧ isSpace c = true := by
  obtain ⟨⟨lead, trail, rfl, hlead, htrail⟩, hfirst, hlast⟩ := h
  constructor
  · intro hpadded
    cases lead with
    | cons c lead => exact ⟨c, .inl rfl, hlead c List.mem_cons_self⟩
    | nil =>
      obtain rfl | ⟨trail, c, rfl⟩ := List.eq_nil_or_concat trail
      · exact absurd (by simp) hpadded
      · exact ⟨c, .inr (by simp), htrail c (by simp)⟩
  · rintro ⟨c, hends, hspace⟩ heq
    rw [heq] at hends
    obtain hhead | hend := hends
    · rw [hfirst c hhead] at hspace
      cases hspace
    · rw [hlast c hend] at hspace
      cases hspace

lemma nonPrintable_iff :
    lintStringNonPrintable string = some note ↔
      ∃ before b after, string.raw = before ++ b :: after ∧
        (∀ c ∈ before, isPlain c = true) ∧ isPlain b = false ∧
        note = nonPrintableNote b before.length := by
  constructor
  · intro h
    obtain ⟨b, hfirst, rfl⟩ := Option.map_eq_some_iff.mp h
    obtain ⟨after, hrest⟩ := List.head?_eq_some_iff.mp hfirst
    refine ⟨string.raw.takeWhile isPlain, b, after, ?_, ?_, dropWhile_first hfirst, rfl⟩
    · rw [← hrest, List.takeWhile_append_dropWhile]
    · exact fun c hc => List.all_eq_true.mp List.all_takeWhile c hc
  · rintro ⟨before, b, after, hraw, hbefore, hb, rfl⟩
    have hrest : string.raw.dropWhile isPlain = b :: after := by
      rw [hraw, List.dropWhile_append_of_pos hbefore, List.dropWhile_cons_of_neg (by simp [hb])]
    have htaken : string.raw.takeWhile isPlain = before := by
      rw [hraw, List.takeWhile_append_of_pos hbefore, List.takeWhile_cons_of_neg (by simp [hb]),
        List.append_nil]
    rw [lintStringNonPrintable, hrest, htaken]
    rfl

lemma note_iff (rule : LintStringRule)
    (htrimmed : string.pretty = entityStringTrim string.raw) (hne : string.raw ≠ []) :
    rule.note string = some note ↔ TextFault string.raw rule note := by
  have htrim := entityStringTrim_trimmed string.raw
  rw [← htrimmed] at htrim
  cases rule with
  | tooLong =>
    constructor
    · intro h
      obtain ⟨hlong, hnote⟩ := Option.ite_none_right_eq_some.mp h
      exact Option.some.inj hnote ▸ .tooLong hlong
    · intro h
      cases h with
      | tooLong hlong => exact if_pos hlong
  | nonPrintable =>
    refine nonPrintable_iff.trans ⟨?_, fun h => ?_⟩
    · rintro ⟨before, b, after, hraw, hbefore, hb, rfl⟩
      exact .nonPrintable hraw hbefore hb
    · cases h with
      | nonPrintable hraw hbefore hb => exact ⟨_, _, _, hraw, hbefore, hb, rfl⟩
  | blank =>
    constructor
    · intro h
      obtain ⟨hblank, hnote⟩ := Option.ite_none_left_eq_some.mp h
      rw [not_or, not_not] at hblank
      exact Option.some.inj hnote ▸ .blank (htrim.eq_nil_iff.mp hblank.2)
    · intro h
      cases h with
      | blank hall => exact if_neg (not_or.mpr ⟨hne, not_not.mpr (htrim.eq_nil_iff.mpr hall)⟩)
  | padded =>
    constructor
    · intro h
      obtain ⟨htext, hnote⟩ := Option.ite_none_left_eq_some.mp h
      obtain ⟨hpadded, hnote⟩ := Option.ite_none_right_eq_some.mp hnote
      obtain ⟨c, hends, hspace⟩ := htrim.ne_iff.mp hpadded
      rw [htrim.eq_nil_iff] at htext
      push Not at htext
      obtain ⟨b, hb, hkept⟩ := htext
      exact Option.some.inj hnote ▸ .padded hb (Bool.eq_false_iff.mpr hkept) hends hspace
    · intro h
      cases h with
      | padded hb hkept hends hspace =>
        have htext : string.pretty ≠ [] := fun hnil => by
          rw [htrim.eq_nil_iff.mp hnil _ hb] at hkept
          cases hkept
        exact (if_neg htext).trans (if_pos (htrim.ne_iff.mpr ⟨_, hends, hspace⟩))

end Texts

section Exact

variable {lint : Lint} {entity : Entity} {offset : ℕ} {runs : List (List Byte)}
  {issue : LintIssue} {rule : LintStringRule}

lemma mem_lintStrings (h : StringsOf lint.table offset entity runs)
    (hne : ∀ run ∈ runs, run ≠ []) :
    issue ∈ lintStrings lint entity rule ↔
      ∃ n run note, runs[n]? = some run ∧ TextFault run rule note ∧
        issue = stringIssue lint entity rule (n + 1) note := by
  rw [lintStrings, List.mem_filterMap]
  constructor
  · rintro ⟨⟨string, n⟩, hmem, hissue⟩
    obtain ⟨note, hnote, rfl⟩ := Option.map_eq_some_iff.mp hissue
    have hstring : entity.strings[n]? = some string := List.mk_mem_zipIdx_iff_getElem?.mp hmem
    have hin := List.mem_of_getElem? hstring
    have hrun : string.raw ∈ runs := h.count ▸ List.mem_map_of_mem hin
    refine ⟨n, string.raw, note, ?_, (note_iff rule (h.trimmed string hin)
      (hne _ hrun)).mp hnote, rfl⟩
    rw [← h.count, List.getElem?_map, hstring]
    rfl
  · rintro ⟨n, run, note, hrun, hfault, rfl⟩
    rw [← h.count, List.getElem?_map] at hrun
    obtain ⟨string, hstring, rfl⟩ := Option.map_eq_some_iff.mp hrun
    have hin := List.mem_of_getElem? hstring
    have hraw : string.raw ∈ runs := h.count ▸ List.mem_map_of_mem hin
    refine ⟨(string, n), List.mk_mem_zipIdx_iff_getElem?.mpr hstring, ?_⟩
    rw [(note_iff rule (h.trimmed string hin) (hne _ hraw)).mpr hfault]
    rfl

/-- Of a structure which is read from the table, the rules of texts which are enabled report just
what is wrong with each of its strings, by its number and by the place it has in the table. -/
theorem string_text_lint_exact (enabled : String → Bool) (lint : Lint) (offset : ℕ)
    (entity : Entity) (hcreate : entityCreate lint.table offset = .ok entity) :
    ∃ k runs, IsStringSet (lint.table.data.drop (offset + bodyAt lint.table.data offset)) k runs ∧
      (∀ issue, issue ∈ lintCheckStrings enabled lint entity ↔
        ∃ rule n run note, enabled rule.code = true ∧ runs[n]? = some run ∧
          TextFault run rule note ∧ issue = stringIssue lint entity rule (n + 1) note) ∧
      ∀ rule n run note, runs[n]? = some run →
        ∃ place, (stringIssue lint entity rule (n + 1) note).offset = some place ∧
          window lint.table.data place (run.length + 1) = run ++ [0] := by
  obtain ⟨k, runs, hset, hstrings, -, hplaces⟩ := entityCreate_stringsOf hcreate
  refine ⟨k, runs, hset, fun issue => ?_, fun rule n run note hrun =>
    ⟨_, (hplaces n run hrun).offset, (hplaces n run hrun).there⟩⟩
  have hmem : ∀ rule, issue ∈ lintStrings lint entity rule ↔ _ := fun _ =>
    mem_lintStrings hstrings fun run hrun => (hset.nonempty run hrun).1
  rw [lintCheckStrings, List.mem_flatMap]
  constructor
  · rintro ⟨rule, -, hissue⟩
    obtain ⟨henabled, hissue⟩ := List.mem_ite_nil_right.mp hissue
    obtain ⟨n, run, note, hfound⟩ := (hmem rule).mp hissue
    exact ⟨rule, n, run, note, henabled, hfound⟩
  · rintro ⟨rule, n, run, note, henabled, hfound⟩
    refine ⟨rule, by cases rule <;> simp [lintStringRules], ?_⟩
    exact List.mem_ite_nil_right.mpr ⟨henabled, (hmem rule).mpr ⟨n, run, note, hfound⟩⟩

theorem string_text_lint_exact_two : ∃ entity,
    entityCreate twoStrings 0 = .ok entity ∧
      ∃ k runs, IsStringSet (twoStrings.data.drop (0 + bodyAt twoStrings.data 0)) k runs ∧
      (∀ issue, issue ∈ lintCheckStrings (fun _ => true)
          ⟨sampleContext, twoStrings, 0, registryCreate 0⟩ entity ↔
        ∃ rule n run note, true = true ∧ runs[n]? = some run ∧ TextFault run rule note ∧
          issue = stringIssue ⟨sampleContext, twoStrings, 0, registryCreate 0⟩ entity rule (n + 1)
            note) ∧
      ∀ rule n run note, runs[n]? = some run →
        ∃ place, (stringIssue ⟨sampleContext, twoStrings, 0, registryCreate 0⟩ entity rule (n + 1)
          note).offset = some place ∧
          window twoStrings.data place (run.length + 1) = run ++ [0] := by
  cases hcreate : entityCreate twoStrings 0 with
  | ok entity =>
    exact ⟨entity, rfl, string_text_lint_exact (fun _ => true)
      ⟨sampleContext, twoStrings, 0, registryCreate 0⟩ 0 entity hcreate⟩
  | error error => cases error <;> exact absurd hcreate (by decide)

end Exact

end OpenDmi
