import OpenDmi.Regions

namespace OpenDmi

open Bytes

variable {area other : List Byte} {base count k n offset : ℕ} {table : Buffer} {entity : Entity}
  {run : List Byte} {runs : List (List Byte)}

def entityStringEx (entity : Entity) (num : ℕ) (raw : Bool) : Option (List Byte) :=
  if num = 0 ∨ num > entity.strings.length then none
  else (entity.strings[num - 1]?).map fun string => if raw then string.raw else string.pretty

/-- Offsets are of the table the context holds: a structure read from elsewhere has none. -/
def lintEntityOffset (table : Buffer) (entity : Entity) : Option ℕ :=
  if entity.buffer ≠ table then none else some entity.offset

def lintStringOffset (table : Buffer) (entity : Entity) (num : ℕ) : Option ℕ :=
  (lintEntityOffset table entity).bind fun offset =>
    if num = 0 ∨ num > entity.strings.length then none
    else some ((entity.strings.take (num - 1)).foldl
      (fun offset string => offset + (string.raw.length + 1)) (offset + entity.bodyLength))

structure Trimmed (text pretty : List Byte) : Prop where
  split : ∃ lead trail, text = lead ++ pretty ++ trail ∧ (∀ b ∈ lead, isSpace b = true) ∧
    ∀ b ∈ trail, isSpace b = true
  first : ∀ b, pretty.head? = some b → isSpace b = false
  last : ∀ b, pretty.getLast? = some b → isSpace b = false

lemma dropWhile_first {p : Byte → Bool} {text : List Byte} {b : Byte}
    (h : (text.dropWhile p).head? = some b) : p b = false := by
  have hnot := List.head?_dropWhile_not p text
  rw [h] at hnot
  simpa using hnot

lemma entityStringTrim_trimmed (text : List Byte) : Trimmed text (entityStringTrim text) := by
  set rest := text.dropWhile isSpace with hrest
  have hback : rest = entityStringTrim text ++ (rest.reverse.takeWhile isSpace).reverse := by
    have hsplit := congrArg List.reverse (List.takeWhile_append_dropWhile (p := isSpace)
      (l := rest.reverse))
    rw [List.reverse_append, List.reverse_reverse] at hsplit
    exact hsplit.symm
  refine ⟨⟨text.takeWhile isSpace, (rest.reverse.takeWhile isSpace).reverse, ?_, fun b hb => ?_,
    fun b hb => ?_⟩, fun b hb => ?_, fun b hb => ?_⟩
  · rw [List.append_assoc, ← hback, hrest, List.takeWhile_append_dropWhile]
  · exact List.all_eq_true.mp List.all_takeWhile b hb
  · exact List.all_eq_true.mp List.all_takeWhile b (List.mem_reverse.mp hb)
  · have hfirst : rest.head? = some b := by
      rw [hback, List.head?_append, hb]
      rfl
    exact dropWhile_first (hrest ▸ hfirst)
  · rw [entityStringTrim, List.getLast?_reverse] at hb
    exact dropWhile_first hb

/-- The strings of an area are the runs of the bytes before its first double NUL, each of them
ended by one; an area which begins with a NUL holds none. -/
structure IsStringSet (area : List Byte) (k : ℕ) (runs : List (List Byte)) : Prop where
  ends : DoubleNul area k
  empty : area.head? = some 0 → runs = []
  joined : area.head? ≠ some 0 → area.take (k + 1) = (runs.map (· ++ [0])).flatten
  nonempty : ∀ run ∈ runs, run ≠ [] ∧ ∀ b ∈ run, b ≠ 0

lemma cString_nul (h : (cString area).length < area.length) :
    area.take ((cString area).length + 1) = cString area ++ [0] := by
  have htake : (cString area ++ 0 :: area.drop ((cString area).length + 1)).take
      ((cString area).length + 1) = cString area ++ [0] := by
    rw [List.take_length_add_append]
    rfl
  rwa [← cString_split h] at htake

lemma first_run (hk : DoubleNul area k) (hhead : area.head? ≠ some 0) :
    cString area ≠ [] ∧ area.take ((cString area).length + 1) = cString area ++ [0] ∧
      ((cString area).length = k ∧ nulCount area k = 0 ∨
        ∃ j, k = (cString area).length + 1 + j ∧
          DoubleNul (area.drop ((cString area).length + 1)) j ∧
          (area.drop ((cString area).length + 1)).head? ≠ some 0 ∧
          nulCount area k = nulCount (area.drop ((cString area).length + 1)) j + 1) := by
  have hle := cString_length_le hk.1.1
  have hlong := hk.lt_length
  have hsplit := cString_split (show (cString area).length < area.length by omega)
  have hget : ∀ i, (area.drop ((cString area).length + 1))[i]? =
      area[(cString area).length + 1 + i]? := fun i => List.getElem?_drop
  refine ⟨fun hnil => ?_, ?_, ?_⟩
  · rw [hnil, List.nil_append] at hsplit
    exact hhead (by rw [hsplit]; rfl)
  · exact cString_nul (by omega)
  · rcases hle.eq_or_lt with heq | hlt
    · exact .inl ⟨heq, by rw [hsplit, nulCount_text cString_ne_zero heq.ge]⟩
    · obtain ⟨j, rfl⟩ := Nat.exists_eq_add_of_le (show (cString area).length + 1 ≤ k by omega)
      refine .inr ⟨j, rfl, ⟨?_, fun i hi hz => hk.2 ((cString area).length + 1 + i) (by omega) ?_⟩,
        fun hzero => hk.2 (cString area).length hlt ⟨cString_end (by omega), ?_⟩, ?_⟩
      · rw [hget, hget]
        exact hk.1
      · rw [hget, hget] at hz
        exact hz
      · rw [List.head?_eq_getElem?, hget] at hzero
        exact hzero
      · have hsum : nulCount (cString area ++ 0 :: area.drop ((cString area).length + 1))
            ((cString area).length + 1 + j) =
            nulCount (area.drop ((cString area).length + 1)) j + 1 :=
          nulCount_split cString_ne_zero j
        rwa [← hsplit] at hsum

lemma decodeStrings_runs (base : ℕ) (hk : DoubleNul area k) (hhead : area.head? ≠ some 0) :
    area.take (k + 1) = ((entityDecodeStrings (nulCount area k + 1) area base).map
        (·.raw ++ [0])).flatten ∧
      ∀ string ∈ entityDecodeStrings (nulCount area k + 1) area base,
        string.pretty = entityStringTrim string.raw ∧ string.raw ≠ [] ∧
          ∀ b ∈ string.raw, b ≠ 0 := by
  induction hn : nulCount area k generalizing area base k with
  | zero =>
    obtain ⟨hne, htake, ⟨hlast, -⟩ | ⟨j, -, -, -, hmore⟩⟩ := first_run hk hhead
    · rw [hlast] at htake
      simpa [entityDecodeStrings, htake, hne] using @cString_ne_zero area
    · omega
  | succ n ih =>
    obtain ⟨hne, htake, ⟨-, hnone⟩ | ⟨j, hend, hrest, hhead', hmore⟩⟩ := first_run hk hhead
    · omega
    · obtain ⟨hjoined, hruns⟩ := ih (base + (cString area).length + 1) hrest hhead' (by omega)
      rw [entityDecodeStrings]
      refine ⟨?_, fun string hm => ?_⟩
      · rw [List.map_cons, List.flatten_cons, ← hjoined, ← htake, hend,
          show (cString area).length + 1 + j + 1 = (cString area).length + 1 + (j + 1) by omega,
          List.take_add]
      · rcases List.mem_cons.mp hm with rfl | hm
        · exact ⟨rfl, hne, cString_ne_zero⟩
        · exact hruns string hm

lemma cString_append {text rest : List Byte} (h : ∀ b ∈ text, b ≠ 0) :
    cString (text ++ 0 :: rest) = text := by
  rw [cString, List.takeWhile_append_of_pos fun b hb => by simpa using h b hb]
  simp

lemma cString_take (hk : area[k]? = some 0) : cString (area.take (k + 1)) = cString area := by
  have hle := cString_length_le hk
  obtain ⟨hlt, -⟩ := List.getElem?_eq_some_iff.mp hk
  have hshort : (area.take (k + 1)).take ((cString area).length + 1) = cString area ++ [0] := by
    rw [List.take_take, min_eq_left (by omega), cString_nul (by omega)]
  rw [← List.take_append_drop ((cString area).length + 1) (area.take (k + 1)), hshort,
    List.append_assoc]
  exact cString_append cString_ne_zero

lemma decodeStrings_congr (h : area.take (k + 1) = other.take (k + 1)) (hk : area[k]? = some 0)
    (hcount : count ≤ nulCount area k + 1) :
    entityDecodeStrings count area base = entityDecodeStrings count other base := by
  induction count generalizing area other base k with
  | zero => rfl
  | succ count ih =>
    have hk' : other[k]? = some 0 := by
      have hget := congrArg (·[k]?) h
      simpa [hk] using hget.symm
    have hsame : cString other = cString area := by
      rw [← cString_take hk, ← cString_take hk', h]
    have hle := cString_length_le hk
    obtain ⟨hlong, -⟩ := List.getElem?_eq_some_iff.mp hk
    have hsplit := cString_split (show (cString area).length < area.length by omega)
    rw [entityDecodeStrings, entityDecodeStrings, hsame]
    simp only [List.cons.injEq, true_and]
    rcases hle.eq_or_lt with heq | hlt
    · rw [hsplit, nulCount_text cString_ne_zero heq.ge] at hcount
      obtain rfl : count = 0 := by omega
      rfl
    · obtain ⟨j, rfl⟩ := Nat.exists_eq_add_of_le (show (cString area).length + 1 ≤ k by omega)
      refine ih (k := j) ?_ (by rwa [List.getElem?_drop]) ?_
      · have hdrop := congrArg (List.drop ((cString area).length + 1)) h
        rwa [List.drop_take, List.drop_take, show (cString area).length + 1 + j + 1 -
          ((cString area).length + 1) = j + 1 by omega] at hdrop
      · have hsum : nulCount (cString area ++ 0 :: area.drop ((cString area).length + 1))
            ((cString area).length + 1 + j) =
            nulCount (area.drop ((cString area).length + 1)) j + 1 :=
          nulCount_split cString_ne_zero j
        rw [← hsplit] at hsum
        omega

lemma entityCreate_eq (hbody : headerSize ≤ bodyAt table.data offset)
    (hk : DoubleNul (table.data.drop (offset + bodyAt table.data offset)) k) :
    entityCreate table offset = .ok {
      typeId := typeAt table.data offset
      bodyLength := bodyAt table.data offset
      handle := leLoad (window table.data (offset + 2) 2)
      buffer := table
      offset := offset
      extraLength := k + 2
      totalLength := bodyAt table.data offset + (k + 2)
      strings := entityDecodeStrings
        (if (table.data.drop (offset + bodyAt table.data offset)).head? = some 0 then 0
          else nulCount (table.data.drop (offset + bodyAt table.data offset)) k + 1)
        (table.data.drop (offset + bodyAt table.data offset)) (offset + bodyAt table.data offset)
      spec := none
      overlay := none } := by
  have h0 : (table.data.drop offset).getD 0 0 = table.data.getD offset 0 := by
    simp [List.getD_eq_getElem?_getD]
  have h1 : (table.data.drop offset).getD 1 0 = table.data.getD (offset + 1) 0 := by
    simp [List.getD_eq_getElem?_getD]
  have hbodyAt : (if ((table.data.drop offset).getD 1 0).toNat = 0 then headerSize
      else ((table.data.drop offset).getD 1 0).toNat) = bodyAt table.data offset := by
    rw [h1]
    rfl
  have htypeAt : (if ((table.data.drop offset).getD 1 0).toNat = 0 then typeEndOfTable
      else ((table.data.drop offset).getD 0 0).toNat) = typeAt table.data offset := by
    rw [h1, h0]
    rfl
  have hwindow : window (table.data.drop offset) 2 2 = window table.data (offset + 2) 2 := by
    simp [window, List.drop_drop]
  have hlong := hk.lt_length
  rw [List.length_drop] at hlong
  have hlength := entityDecodeLength_eq.mpr ⟨k, hk, rfl, rfl⟩
  simp only [entityCreate, hbodyAt, htypeAt, hwindow, List.drop_drop, List.length_drop, hlength]
  have hheader : headerSize = 4 := rfl
  rw [if_neg (show ¬ table.data.length - offset < headerSize + 2 by omega),
    if_neg (show ¬ bodyAt table.data offset < headerSize by omega),
    if_neg (show ¬ bodyAt table.data offset > table.data.length - offset by omega)]

lemma runs_length (strings : List StringEntry) (start : ℕ) :
    strings.foldl (fun offset string => offset + (string.raw.length + 1)) start =
      start + (strings.map (·.raw ++ [0])).flatten.length := by
  induction strings generalizing start with
  | nil => rfl
  | cons string strings ih =>
    rw [List.foldl_cons, ih, List.map_cons, List.flatten_cons, List.length_append,
      List.length_append, List.length_singleton]
    omega

structure StringAt (table : Buffer) (entity : Entity) (num : ℕ) (before : List (List Byte))
    (run : List Byte) : Prop where
  raw : entityStringEx entity num true = some run
  pretty : ∃ text, entityStringEx entity num false = some text ∧ Trimmed run text
  offset : lintStringOffset table entity num =
    some (entity.offset + entity.bodyLength + (before.map (· ++ [0])).flatten.length)
  there : window table.data
    (entity.offset + entity.bodyLength + (before.map (· ++ [0])).flatten.length)
    (run.length + 1) = run ++ [0]

lemma entityStringEx_none {num : ℕ} {raw : Bool} (h : num = 0 ∨ entity.strings.length < num) :
    entityStringEx entity num raw = none := if_pos h

lemma entityStringEx_some {n : ℕ} {raw : Bool} {string : StringEntry}
    (h : entity.strings[n]? = some string) :
    entityStringEx entity (n + 1) raw = some (if raw then string.raw else string.pretty) := by
  obtain ⟨hlt, -⟩ := List.getElem?_eq_some_iff.mp h
  rw [entityStringEx, if_neg (by omega), Nat.add_sub_cancel, h]
  rfl

lemma run_window {m : ℕ} (hjoined : area.take m = (runs.map (· ++ [0])).flatten)
    (hrun : runs[n]? = some run) :
    (area.drop ((runs.take n).map (· ++ [0])).flatten.length).take (run.length + 1) =
      run ++ [0] := by
  obtain ⟨hlt, hget⟩ := List.getElem?_eq_some_iff.mp hrun
  have hsplit : area = ((runs.take n).map (· ++ [0])).flatten ++
      ((run ++ [0]) ++ (((runs.drop (n + 1)).map (· ++ [0])).flatten ++ area.drop m)) := by
    have hruns : runs = runs.take n ++ run :: runs.drop (n + 1) := by
      rw [← hget, ← List.drop_eq_getElem_cons hlt, List.take_append_drop]
    conv_lhs => rw [← List.take_append_drop m area, hjoined, hruns]
    simp
  have hlength : run.length + 1 = (run ++ [(0 : Byte)]).length := by simp
  conv_lhs => rw [hsplit, List.drop_left, hlength, List.take_left]

structure StringsOf (table : Buffer) (offset : ℕ) (entity : Entity) (runs : List (List Byte)) :
    Prop where
  buffer : entity.buffer = table
  start : entity.offset = offset ∧ entity.bodyLength = bodyAt table.data offset
  count : entity.strings.map (·.raw) = runs
  trimmed : ∀ string ∈ entity.strings, string.pretty = entityStringTrim string.raw

lemma StringsOf.length (h : StringsOf table offset entity runs) :
    entity.strings.length = runs.length := by rw [← h.count, List.length_map]

lemma StringsOf.string_at (h : StringsOf table offset entity runs) {m : ℕ}
    (hjoined : (table.data.drop (offset + bodyAt table.data offset)).take m =
      (runs.map (· ++ [0])).flatten) (hrun : runs[n]? = some run) :
    StringAt table entity (n + 1) (runs.take n) run := by
  have hget : (entity.strings.map (·.raw))[n]? = some run := h.count ▸ hrun
  rw [List.getElem?_map] at hget
  obtain ⟨string, hstring, rfl⟩ := Option.map_eq_some_iff.mp hget
  obtain ⟨hlt, -⟩ := List.getElem?_eq_some_iff.mp hstring
  refine ⟨entityStringEx_some hstring, ⟨string.pretty, entityStringEx_some hstring, ?_⟩, ?_, ?_⟩
  · rw [h.trimmed string (List.mem_of_getElem? hstring)]
    exact entityStringTrim_trimmed string.raw
  · rw [lintStringOffset, lintEntityOffset, if_neg (not_not.mpr h.buffer), Option.bind_some,
      if_neg (by omega), Nat.add_sub_cancel, runs_length, ← h.count, ← List.map_take,
      List.map_map]
    rfl
  · rw [window, h.start.1, h.start.2, ← List.drop_drop]
    exact run_window hjoined hrun

lemma getElem?_of_take {m i : ℕ} (h : area.take m = other.take m) (hi : i < m) :
    area[i]? = other[i]? := by
  rw [← List.getElem?_take_of_lt hi, h, List.getElem?_take_of_lt hi]

lemma DoubleNul.of_take (h : area.take (k + 2) = other.take (k + 2)) (hk : DoubleNul area k) :
    DoubleNul other k := by
  have hget : ∀ i, i < k + 2 → area[i]? = other[i]? := fun i hi => getElem?_of_take h hi
  refine ⟨⟨hget k (by omega) ▸ hk.1.1, hget (k + 1) (by omega) ▸ hk.1.2⟩, fun j hj hz => ?_⟩
  exact hk.2 j hj ⟨hget j (by omega) ▸ hz.1, hget (j + 1) (by omega) ▸ hz.2⟩

lemma entityCreate_congr {source : Buffer} (hbody : headerSize ≤ bodyAt table.data offset)
    (hk : DoubleNul (table.data.drop (offset + bodyAt table.data offset)) k)
    (hcreate : entityCreate table offset = .ok entity)
    (h : table.data.take (offset + bodyAt table.data offset + (k + 2)) =
      source.data.take (offset + bodyAt table.data offset + (k + 2))) :
    entityCreate source offset = .ok { entity with buffer := source } := by
  have hheader : headerSize = 4 := rfl
  have hbyte : ∀ i, i < 4 → byteAt table.data (offset + i) = byteAt source.data (offset + i) := by
    intro i hi
    have hget := getElem?_of_take h (show offset + i <
      offset + bodyAt table.data offset + (k + 2) by omega)
    rw [byteAt, byteAt, List.getD_eq_getElem?_getD, List.getD_eq_getElem?_getD, hget]
  have hbodyAt : bodyAt source.data offset = bodyAt table.data offset := by
    rw [bodyAt, bodyAt, hbyte 1 (by omega)]
  have htypeAt : typeAt source.data offset = typeAt table.data offset := by
    have hfirst : byteAt table.data offset = byteAt source.data offset := hbyte 0 (by omega)
    rw [typeAt, typeAt, hbyte 1 (by omega), hfirst]
  have hdrop : ∀ start, start ≤ offset + bodyAt table.data offset →
      (table.data.drop start).take (offset + bodyAt table.data offset + (k + 2) - start) =
      (source.data.drop start).take (offset + bodyAt table.data offset + (k + 2) - start) := by
    intro start _
    rw [← List.drop_take, h, List.drop_take]
  have hwindow : window source.data (offset + 2) 2 = window table.data (offset + 2) 2 := by
    have hhandle := congrArg (List.take 2) (hdrop (offset + 2) (by omega))
    rw [List.take_take, List.take_take, min_eq_left (by omega)] at hhandle
    exact hhandle.symm
  have harea : (table.data.drop (offset + bodyAt table.data offset)).take (k + 2) =
      (source.data.drop (offset + bodyAt table.data offset)).take (k + 2) := by
    have htail := hdrop _ le_rfl
    rwa [Nat.add_sub_cancel_left] at htail
  have hshort : (table.data.drop (offset + bodyAt table.data offset)).take (k + 1) =
      (source.data.drop (offset + bodyAt table.data offset)).take (k + 1) := by
    have htail := congrArg (List.take (k + 1)) harea
    rwa [List.take_take, List.take_take, min_eq_left (by omega)] at htail
  have hhead := getElem?_of_take harea (show 0 < k + 2 by omega)
  have hcount : nulCount (source.data.drop (offset + bodyAt table.data offset)) k =
      nulCount (table.data.drop (offset + bodyAt table.data offset)) k := by
    have hfirst := congrArg (List.take k) harea
    rw [List.take_take, List.take_take, min_eq_left (by omega)] at hfirst
    rw [nulCount, nulCount, hfirst]
  rw [entityCreate_eq hbody hk] at hcreate
  have hk' := hk.of_take harea
  rw [← hbodyAt] at hk'
  rw [entityCreate_eq (by rw [hbodyAt]; exact hbody) hk', ← Except.ok.inj hcreate]
  simp only [hbodyAt, htypeAt, hwindow, hcount, List.head?_eq_getElem?, hhead]
  congr 2
  refine (decodeStrings_congr hshort hk.1.1 ?_).symm
  split_ifs <;> omega

lemma decodeStrings_set (base : ℕ) (hk : DoubleNul area k)
    (hcount : count = if area.head? = some 0 then 0 else nulCount area k + 1) :
    IsStringSet area k ((entityDecodeStrings count area base).map (·.raw)) ∧
      ∀ string ∈ entityDecodeStrings count area base,
        string.pretty = entityStringTrim string.raw := by
  by_cases hhead : area.head? = some 0
  · rw [if_pos hhead] at hcount
    subst hcount
    exact ⟨⟨hk, fun _ => rfl, fun hne => absurd hhead hne, by simp [entityDecodeStrings]⟩,
      by simp [entityDecodeStrings]⟩
  · rw [if_neg hhead] at hcount
    subst hcount
    obtain ⟨hjoined, hstrings⟩ := decodeStrings_runs base hk hhead
    refine ⟨⟨hk, fun hzero => absurd hzero hhead, fun _ => ?_, fun run hm => ?_⟩,
      fun string hm => (hstrings string hm).1⟩
    · rw [hjoined, List.map_map]
      rfl
    · obtain ⟨string, hstring, rfl⟩ := List.mem_map.mp hm
      exact (hstrings string hstring).2

lemma entityCreate_ends (hcreate : entityCreate table offset = .ok entity) :
    ∃ k, DoubleNul (table.data.drop (offset + bodyAt table.data offset)) k := by
  obtain ⟨created, -, hoffset, hof⟩ | ⟨herror, -⟩ | ⟨herror, -⟩ := entityCreate_cases table offset
  · obtain ⟨k, hk, -⟩ := hof.whole.strings
    exact ⟨k, hoffset ▸ hk⟩
  · rw [herror] at hcreate
    cases hcreate
  · rw [herror] at hcreate
    cases hcreate

lemma entityCreate_body (hcreate : entityCreate table offset = .ok entity) :
    headerSize ≤ bodyAt table.data offset := by
  obtain ⟨created, -, hoffset, hof⟩ | ⟨herror, -⟩ | ⟨herror, -⟩ := entityCreate_cases table offset
  · exact hoffset ▸ hof.whole.body
  · rw [herror] at hcreate
    cases hcreate
  · rw [herror] at hcreate
    cases hcreate

lemma entityCreate_stringsOf (hcreate : entityCreate table offset = .ok entity) :
    ∃ k runs, IsStringSet (table.data.drop (offset + bodyAt table.data offset)) k runs ∧
      StringsOf table offset entity runs ∧ entity.extraLength = k + 2 ∧
      ∀ n run, runs[n]? = some run → StringAt table entity (n + 1) (runs.take n) run := by
  obtain ⟨k, hk⟩ := entityCreate_ends hcreate
  rw [entityCreate_eq (entityCreate_body hcreate) hk] at hcreate
  obtain rfl := Except.ok.inj hcreate
  obtain ⟨hset, htrimmed⟩ := decodeStrings_set (offset + bodyAt table.data offset) hk rfl
  refine ⟨k, _, hset, ⟨rfl, ⟨rfl, rfl⟩, rfl, htrimmed⟩, rfl, fun n run hrun => ?_⟩
  have hone : (table.data.drop (offset + bodyAt table.data offset)).head? ≠ some 0 := by
    intro hzero
    rw [hset.empty hzero] at hrun
    cases hrun
  exact StringsOf.string_at ⟨rfl, ⟨rfl, rfl⟩, rfl, htrimmed⟩ (hset.joined hone) hrun

/-- A structure is read when a double NUL ends its string set, which then is the runs of bytes
before the first one, each told of by its number, its text and where it starts. -/
theorem entityCreate_string_set (table : Buffer) (offset : ℕ)
    (hbody : headerSize ≤ bodyAt table.data offset) :
    ((∃ entity, entityCreate table offset = .ok entity) ↔
      ∃ k, DoubleNul (table.data.drop (offset + bodyAt table.data offset)) k) ∧
    ∀ entity, entityCreate table offset = .ok entity →
      ∃ k runs, IsStringSet (table.data.drop (offset + bodyAt table.data offset)) k runs ∧
        entity.offset = offset ∧ entity.bodyLength = bodyAt table.data offset ∧
        entity.extraLength = k + 2 ∧ entity.strings.length = runs.length ∧
        (∀ n run, runs[n]? = some run → StringAt table entity (n + 1) (runs.take n) run) ∧
        (∀ num raw, num = 0 ∨ runs.length < num → entityStringEx entity num raw = none) ∧
        ∀ source : Buffer, table.data.take (offset + entity.bodyLength + entity.extraLength) =
          source.data.take (offset + entity.bodyLength + entity.extraLength) →
          entityCreate source offset = .ok { entity with buffer := source } := by
  refine ⟨⟨fun ⟨_, hcreate⟩ => entityCreate_ends hcreate, fun ⟨k, hk⟩ =>
    ⟨_, entityCreate_eq hbody hk⟩⟩, fun entity hcreate => ?_⟩
  obtain ⟨k, runs, hset, hstrings, hextra, hplaces⟩ := entityCreate_stringsOf hcreate
  refine ⟨k, runs, hset, hstrings.start.1, hstrings.start.2, hextra, hstrings.length, hplaces,
    fun num raw hnum => entityStringEx_none (by rwa [hstrings.length]), fun source h => ?_⟩
  rw [hstrings.start.2, hextra] at h
  exact entityCreate_congr hbody hset.ends hcreate h

def twoStrings : Buffer :=
  ⟨0, [7, 6, 1, 0, 1, 2, 32, 65, 32, 0, 66, 0, 0, 9]⟩

theorem entityCreate_string_set_two :
    (∃ entity, entityCreate twoStrings 0 = .ok entity) ∧
      ∃ k, DoubleNul (twoStrings.data.drop (0 + bodyAt twoStrings.data 0)) k := by
  have hset := (entityCreate_string_set twoStrings 0 (by decide)).1
  have hread : ∃ entity, entityCreate twoStrings 0 = .ok entity := by
    cases h : entityCreate twoStrings 0 with
    | ok entity => exact ⟨entity, rfl⟩
    | error error => cases error <;> exact absurd h (by decide)
  exact ⟨hread, hset.mp hread⟩

end OpenDmi
