import OpenDmi.LintValues

namespace OpenDmi

open Bytes Numeral

section Names

variable {values : NameSet} {id : ℤ} {code : List Byte}

def NoName (values : NameSet) (id : ℤ) : Prop :=
  id < 0 ∨ (∀ entry ∈ values.names, entry.id ≠ id) ∧
    ∀ range ∈ values.ranges, ¬ (range.startId ≤ id ∧ id ≤ range.endId)

/-- The first entry of the identifier has the code, or the first range which holds it where there
is no entry. -/
def FirstName (values : NameSet) (id : ℤ) (code : List Byte) : Prop :=
  0 ≤ id ∧
    ((∃ before entry after, values.names = before ++ entry :: after ∧
        (∀ other ∈ before, other.id ≠ id) ∧ entry.id = id ∧ entry.code = code) ∨
      (∀ entry ∈ values.names, entry.id ≠ id) ∧
        ∃ before range after, values.ranges = before ++ range :: after ∧
          (∀ other ∈ before, ¬ (other.startId ≤ id ∧ id ≤ other.endId)) ∧
          (range.startId ≤ id ∧ id ≤ range.endId) ∧ range.code = code)

lemma codeLookup_none : codeLookup values id = none ↔ NoName values id := by
  rw [codeLookup, Option.map_eq_none_iff, nameFind, NoName]
  by_cases hid : id < 0
  · simp [hid]
  rw [if_neg hid]
  cases hfind : values.names.find? (·.id == id) with
  | some entry =>
    have hentry := List.find?_some hfind
    have hmem := List.mem_of_find?_eq_some hfind
    simp only [reduceCtorEq, hid, false_or, false_iff, not_and_or]
    exact .inl fun hnone => hnone entry hmem (by simpa using hentry)
  | none =>
    simp only [Option.map_eq_none_iff, List.find?_eq_none, hid, false_or] at hfind ⊢
    constructor
    · intro hranges
      exact ⟨fun entry hentry => by simpa using hfind entry hentry, fun range hrange => by
        simpa using hranges range hrange⟩
    · rintro ⟨-, hranges⟩ range hrange
      simpa using hranges range hrange

lemma codeLookup_some : codeLookup values id = some code ↔ FirstName values id code := by
  rw [codeLookup, nameFind, FirstName]
  by_cases hid : id < 0
  · simp [hid]
  rw [if_neg hid]
  have hnonneg : 0 ≤ id := not_lt.mp hid
  cases hfind : values.names.find? (·.id == id) with
  | some entry =>
    obtain ⟨hentry, before, after, hnames, hbefore⟩ := List.find?_eq_some_iff_append.mp hfind
    have hthere : entry ∈ values.names := List.mem_of_find?_eq_some hfind
    have hentry : entry.id = id := by simpa using hentry
    have hbefore : ∀ other ∈ before, other.id ≠ id := fun other hother => by
      simpa using hbefore other hother
    simp only [Option.map_some, Option.some.injEq]
    constructor
    · intro hcode
      exact ⟨hnonneg, .inl ⟨before, entry, after, hnames, hbefore, hentry, hcode⟩⟩
    · rintro ⟨-, ⟨first, other, rest, hsplit, hfirst, hother, hcode⟩ | ⟨hnone, -⟩⟩
      · have hsame : values.names.find? (·.id == id) = some other :=
          List.find?_eq_some_iff_append.mpr ⟨by simpa using hother, first, rest, hsplit,
            fun entry hentry => by simpa using hfirst entry hentry⟩
        rw [hfind, Option.some.injEq] at hsame
        rw [hsame, hcode]
      · exact absurd hentry (hnone entry hthere)
  | none =>
    have hnone : ∀ entry ∈ values.names, entry.id ≠ id := fun entry hentry => by
      simpa using List.find?_eq_none.mp hfind entry hentry
    simp only [Option.map_map, Option.map_eq_some_iff, Function.comp_apply]
    constructor
    · rintro ⟨range, hrange, hcode⟩
      obtain ⟨hholds, before, after, hranges, hbefore⟩ := List.find?_eq_some_iff_append.mp hrange
      exact ⟨hnonneg, .inr ⟨hnone, before, range, after, hranges, fun other hother =>
        of_decide_eq_false ((Bool.not_eq_true' _).mp (hbefore other hother)),
        of_decide_eq_true hholds, hcode⟩⟩
    · rintro ⟨-, ⟨before, entry, after, hnames, -, hentry, -⟩ | ⟨-, before, range, after, hranges,
        hbefore, hholds, hcode⟩⟩
      · exact absurd hentry (hnone entry (by simp [hnames]))
      · exact ⟨range, List.find?_eq_some_iff_append.mpr ⟨decide_eq_true hholds, before, after,
          hranges, fun other hother =>
            (Bool.not_eq_true' _).mpr (decide_eq_false (hbefore other hother))⟩, hcode⟩

end Names

section Bits

variable {names : List NameEntry} {i n : ℕ}

def NameGap (names : List NameEntry) (i : ℕ) : Prop :=
  (∀ entry ∈ names, entry.id ≠ i) ∧ ∃ entry ∈ names, (i : ℤ) < entry.id ∧ entry.id < 64

lemma knownBits_testBit (names : List NameEntry) (bits : ℕ × ℤ) (i : ℕ) :
    (names.foldl lintKnownBit bits).1.testBit i = true ↔
      bits.1.testBit i = true ∨ i < 64 ∧ ∃ entry ∈ names, entry.id = i := by
  induction names generalizing bits with
  | nil => simp
  | cons entry names ih =>
    rw [List.foldl_cons, ih, lintKnownBit]
    simp only [List.exists_mem_cons_iff]
    by_cases hid : 0 ≤ entry.id ∧ entry.id < 64
    · rw [if_pos hid]
      obtain ⟨k, hk⟩ := Int.eq_ofNat_of_zero_le hid.1
      have hone : (1 <<< k).testBit i = true ↔ k = i := by
        rw [Nat.one_shiftLeft, Nat.testBit_two_pow, decide_eq_true_iff]
      simp only [hk, Int.toNat_natCast, Nat.testBit_or, Bool.or_eq_true, hone, Nat.cast_inj]
      have hlt : k < 64 := by omega
      constructor
      · rintro ((hbit | rfl) | ⟨hi, hrest⟩)
        · exact .inl hbit
        · exact .inr ⟨hlt, .inl rfl⟩
        · exact .inr ⟨hi, .inr hrest⟩
      · rintro (hbit | ⟨hi, rfl | hrest⟩)
        · exact .inl (.inl hbit)
        · exact .inl (.inr rfl)
        · exact .inr ⟨hi, hrest⟩
    · have hne : i < 64 → entry.id ≠ i := fun hi he => hid (by omega)
      rw [if_neg hid]
      constructor
      · rintro (hbit | ⟨hi, hrest⟩)
        · exact .inl hbit
        · exact .inr ⟨hi, .inr hrest⟩
      · rintro (hbit | ⟨hi, he | hrest⟩)
        · exact .inl hbit
        · exact absurd he (hne hi)
        · exact .inr ⟨hi, hrest⟩

lemma knownBits_le (names : List NameEntry) (bits : ℕ × ℤ) (last : ℤ) :
    last ≤ (names.foldl lintKnownBit bits).2 ↔
      last ≤ bits.2 ∨ ∃ entry ∈ names, 0 ≤ entry.id ∧ entry.id < 64 ∧ last ≤ entry.id := by
  induction names generalizing bits with
  | nil => simp
  | cons entry names ih =>
    rw [List.foldl_cons, ih, lintKnownBit, List.exists_mem_cons_iff, ← or_assoc]
    refine or_congr_left ?_
    split_ifs <;> constructor <;> intro h <;> omega

lemma knownBits_lt (names : List NameEntry) : (lintKnownBits names).2 < 64 := by
  by_contra h
  rw [not_lt, lintKnownBits, knownBits_le] at h
  obtain h | ⟨entry, -, -, hlt, hle⟩ := h <;> omega

lemma reservedBits_testBit (names : List NameEntry) (bits i : ℕ) :
    (lintReservedBits names bits).testBit i = true ↔ bits.testBit i = true ∧ NameGap names i := by
  have hknown := knownBits_testBit names (0, -1) i
  have hlast := knownBits_le names (0, -1)
  have hlt := knownBits_lt names
  rw [Nat.zero_testBit, Bool.false_eq_true, false_or] at hknown
  rw [lintReservedBits]
  change ((lintKnownBits names).1.testBit i = true ↔ _) at hknown
  change (∀ last, last ≤ (lintKnownBits names).2 ↔ _) at hlast
  generalize lintKnownBits names = known at hknown hlast hlt
  obtain ⟨known, last⟩ := known
  simp only at hknown hlast hlt ⊢
  have hgap : NameGap names i ↔ (i : ℤ) ≤ last ∧ ¬ known.testBit i = true := by
    rw [hlast, hknown, NameGap]
    constructor
    · rintro ⟨hnone, entry, hentry, hi, hid⟩
      exact ⟨.inr ⟨entry, hentry, by omega, hid, hi.le⟩, fun ⟨_, other, hother, he⟩ =>
        hnone other hother he⟩
    · rintro ⟨hneg | ⟨entry, hentry, -, hid, hi⟩, hnone⟩
      · omega
      · have hnone : ∀ other ∈ names, other.id ≠ i := fun other hother he =>
          hnone ⟨by omega, other, hother, he⟩
        exact ⟨hnone, entry, hentry, lt_of_le_of_ne hi (hnone entry hentry).symm, hid⟩
  rw [hgap]
  split_ifs with hneg hdescribed
  · rw [Nat.zero_testBit]
    constructor
    · intro h
      cases h
    · omega
  all_goals
    have hmax : uintmaxMax.testBit i = true ↔ i < 64 := by
      rw [uintmaxMax, Nat.testBit_two_pow_sub_one, decide_eq_true_iff]
    simp only [Nat.testBit_and, Nat.testBit_xor, Bool.and_eq_true, bne_iff_ne, ne_eq, and_assoc]
    refine and_congr_right fun _ => ?_
  · have hones : (1 <<< (last + 1).toNat - 1).testBit i = true ↔ (i : ℤ) ≤ last := by
      rw [Nat.one_shiftLeft, Nat.testBit_two_pow_sub_one, decide_eq_true_iff]
      omega
    rw [hones]
    refine and_congr_right fun hi => ?_
    rw [hmax.mpr (by omega)]
  · have hall : i < 64 ↔ (i : ℤ) ≤ last := by omega
    rw [hmax, hall]
    refine and_congr_right fun hi => ?_
    rw [hmax.mpr (by omega)]

lemma bitCount_eq {width : ℕ} (h : n < 2 ^ width) :
    lintBitCount n = (List.range width).countP n.testBit := by
  induction width generalizing n with
  | zero =>
    obtain rfl : n = 0 := by simpa using h
    rw [lintBitCount]
    rfl
  | succ width ih =>
    have hhalf : n / 2 < 2 ^ width := by
      rw [pow_succ] at h
      omega
    have hrest : (List.range width).countP (n.testBit ∘ Nat.succ) =
        (List.range width).countP (n / 2).testBit := by
      refine congrArg (List.countP · _) (funext fun i => ?_)
      exact Nat.testBit_succ n i
    rw [List.range_succ_eq_map, List.countP_cons, List.countP_map, hrest, ← ih hhalf, lintBitCount,
      Nat.testBit_zero, Nat.and_one_is_mod, Nat.shiftRight_one]
    split_ifs with hn hodd hodd
    · subst hn
      cases hodd
    · subst hn
      rw [lintBitCount]
      rfl
    · have hone : n % 2 = 1 := by simpa using hodd
      omega
    · have hzero : n % 2 = 0 := by simpa using hodd
      omega

lemma isBcd_iff : lintIsBcd n = true ↔ ∀ i, n / 16 ^ i % 16 ≤ 9 := by
  induction n using Nat.strong_induction_on with
  | _ n ih =>
    rw [lintIsBcd, show n &&& 0x0F = n % 16 from Nat.and_two_pow_sub_one_eq_mod n 4,
      Nat.shiftRight_eq_div_pow]
    split_ifs with hn hdigit
    · subst hn
      simp
    · have hrest : ∀ i, n / 2 ^ 4 / 16 ^ i = n / 16 ^ (i + 1) := fun i => by
        rw [show (2 : ℕ) ^ 4 = 16 from rfl, Nat.div_div_eq_div_mul, pow_succ']
      rw [ih _ (Nat.div_lt_self (Nat.pos_of_ne_zero hn) (by decide))]
      constructor
      · intro h i
        cases i with
        | zero => simpa using hdigit
        | succ i => exact hrest i ▸ h i
      · intro h i
        rw [hrest]
        exact h (i + 1)
    · simp only [false_iff, not_forall]
      exact ⟨0, by simpa using hdigit⟩

end Bits

section Exact

variable {node : WalkNode} {details : List Byte}

structure LintFaults (node : WalkNode) : Prop where
  invalidEnum : (lintCheckEnum node).isSome ↔ node.attr.kind = .enum ∧
    node.attr.params.flags.isOpen = false ∧ lintValueIsSpecial node = false ∧
    ∃ values, node.attr.params.values = some values ∧ NoName values (valueId node)
  reserved : (lintCheckReserved node).isSome ↔ node.attr.kind = .enum ∧
    lintValueIsSpecial node = false ∧
    ∃ values, node.attr.params.values = some values ∧ FirstName values (valueId node) reservedCode
  reservedBits : (lintCheckBits node).isSome ↔ node.attr.kind = .set ∧
    ∃ values, node.attr.params.values = some values ∧
      ∃ i, (valueNatural node (nodeBytes node)).testBit i = true ∧ NameGap values.names i
  bcd : (lintCheckBcd node).isSome ↔ node.attr.params.flags.isBcd = true ∧
    lintValueIsSpecial node = false ∧
    ∃ i, 9 < valueNatural node (nodeBytes node) / 16 ^ i % 16
  range : (lintCheckRange node).isSome ↔ lintValueIsSpecial node = false ∧
    ((∃ minimum, node.attr.params.minimum = some minimum ∧
        valueNumber node (nodeBytes node) < valueNumber node minimum) ∨
      ∃ maximum, node.attr.params.maximum = some maximum ∧
        valueNumber node maximum < valueNumber node (nodeBytes node))
  jep106 : (lintCheckJep106 node).isSome ↔ node.attr.params.flags.isJep106 = true ∧
    lintValueIsSpecial node = false ∧
    let code := valueNatural node (nodeBytes node)
    code ≠ 0 ∧ (jep106Banks < code % 2 ^ 7 ∨
      Even ((List.range 8).countP fun i => code.testBit (8 + i)))
  uuid : (lintCheckUuid node).isSome ↔ node.attr.kind = .uuid ∧
    ((∀ b ∈ (valueUuid node.block node.offset).bytes, b = 0) ∨
      ∀ b ∈ (valueUuid node.block node.offset).bytes, b = 0xFF)

lemma checkEnum_isSome : (lintCheckEnum node).isSome ↔ node.attr.kind = .enum ∧
    node.attr.params.flags.isOpen = false ∧ lintValueIsSpecial node = false ∧
    ∃ values, node.attr.params.values = some values ∧ NoName values (valueId node) := by
  rw [lintCheckEnum]
  cases node.attr.params.values with
  | none => simp
  | some values =>
    simp only [Option.some.injEq, exists_eq_left', ← codeLookup_none]
    split_ifs with hpassed hnone
    · simp only [Option.isSome_none, Bool.false_eq_true, false_iff]
      rintro ⟨hkind, hopen, hspecial, -⟩
      simp [hkind, hopen, hspecial] at hpassed
    · simp only [not_or, not_not, Bool.not_eq_true] at hpassed
      exact iff_of_true rfl ⟨hpassed.1, hpassed.2.1, hpassed.2.2, hnone⟩
    · exact iff_of_false (by simp) fun h => hnone h.2.2.2

lemma checkReserved_isSome : (lintCheckReserved node).isSome ↔ node.attr.kind = .enum ∧
    lintValueIsSpecial node = false ∧
    ∃ values, node.attr.params.values = some values ∧
      FirstName values (valueId node) reservedCode := by
  rw [lintCheckReserved]
  cases node.attr.params.values with
  | none => simp
  | some values =>
    simp only [Option.some.injEq, exists_eq_left', ← codeLookup_some]
    split_ifs with hpassed hcode
    · simp only [Option.isSome_none, Bool.false_eq_true, false_iff]
      rintro ⟨hkind, hspecial, -⟩
      simp [hkind, hspecial] at hpassed
    · simp only [not_or, not_not, Bool.not_eq_true] at hpassed
      exact iff_of_true rfl ⟨hpassed.1, hpassed.2, hcode⟩
    · exact iff_of_false (by simp) fun h => hcode h.2.2

lemma checkBits_isSome : (lintCheckBits node).isSome ↔ node.attr.kind = .set ∧
    ∃ values, node.attr.params.values = some values ∧
      ∃ i, (valueNatural node (nodeBytes node)).testBit i = true ∧ NameGap values.names i := by
  rw [lintCheckBits]
  cases node.attr.params.values with
  | none => simp
  | some values =>
    simp only [Option.some.injEq, exists_eq_left', ← reservedBits_testBit]
    split_ifs with hkind hreserved
    · exact iff_of_false (by simp) fun h => hkind h.1
    · exact iff_of_true rfl ⟨not_not.mp hkind, Nat.exists_testBit_of_ne_zero hreserved⟩
    · refine iff_of_false (by simp) ?_
      rintro ⟨-, i, hi⟩
      rw [not_not.mp hreserved, Nat.zero_testBit] at hi
      cases hi

lemma checkBcd_isSome : (lintCheckBcd node).isSome ↔ node.attr.params.flags.isBcd = true ∧
    lintValueIsSpecial node = false ∧
    ∃ i, 9 < valueNatural node (nodeBytes node) / 16 ^ i % 16 := by
  rw [lintCheckBcd]
  simp only
  split_ifs with hpassed hbcd
  · refine iff_of_false (by simp) ?_
    rintro ⟨hflag, hspecial, -⟩
    simp [hflag, hspecial] at hpassed
  · refine iff_of_false (by simp) ?_
    rintro ⟨-, -, i, hi⟩
    exact absurd (isBcd_iff.mp hbcd i) (not_le.mpr hi)
  · rw [isBcd_iff, not_forall] at hbcd
    obtain ⟨i, hi⟩ := hbcd
    simp only [not_or, Bool.not_eq_true', Bool.not_eq_true, Bool.not_eq_false] at hpassed
    exact iff_of_true rfl ⟨hpassed.1, hpassed.2, i, not_le.mp hi⟩

lemma checkRange_isSome : (lintCheckRange node).isSome ↔ lintValueIsSpecial node = false ∧
    ((∃ minimum, node.attr.params.minimum = some minimum ∧
        valueNumber node (nodeBytes node) < valueNumber node minimum) ∨
      ∃ maximum, node.attr.params.maximum = some maximum ∧
        valueNumber node maximum < valueNumber node (nodeBytes node)) := by
  rw [lintCheckRange]
  simp only
  split_ifs with hpassed
  · refine iff_of_false (by simp) ?_
    rintro ⟨hspecial, ⟨minimum, hminimum, -⟩ | ⟨maximum, hmaximum, -⟩⟩
    · simp [hspecial, hminimum] at hpassed
    · simp [hspecial, hmaximum] at hpassed
  · simp only [not_or, Bool.not_eq_true] at hpassed
    simp only [hpassed.2, true_and, Option.isSome_or, Bool.or_eq_true]
    refine or_congr ?_ ?_
    · cases node.attr.params.minimum with
      | none => simp
      | some minimum =>
        simp only [Option.some.injEq, exists_eq_left']
        split_ifs with hlt <;> simp [hlt]
    · cases node.attr.params.maximum with
      | none => simp
      | some maximum =>
        simp only [Option.some.injEq, exists_eq_left']
        split_ifs with hlt <;> simp [hlt]

lemma checkJep106_isSome : (lintCheckJep106 node).isSome ↔
    node.attr.params.flags.isJep106 = true ∧ lintValueIsSpecial node = false ∧
    let code := valueNatural node (nodeBytes node)
    code ≠ 0 ∧ (jep106Banks < code % 2 ^ 7 ∨
      Even ((List.range 8).countP fun i => code.testBit (8 + i))) := by
  rw [lintCheckJep106]
  simp only
  generalize valueNatural node (nodeBytes node) = code
  have hlow : code &&& 0x7F = code % 2 ^ 7 := Nat.and_two_pow_sub_one_eq_mod code 7
  have hbyte : (code >>> 8) &&& 0xFF = code >>> 8 % 2 ^ 8 :=
    Nat.and_two_pow_sub_one_eq_mod (code >>> 8) 8
  have hcount : lintBitCount ((code >>> 8) &&& 0xFF) =
      (List.range 8).countP fun i => code.testBit (8 + i) := by
    rw [hbyte, bitCount_eq (Nat.mod_lt _ (by decide))]
    refine List.countP_congr fun i hi => ?_
    rw [Nat.testBit_mod_two_pow, Nat.testBit_shiftRight]
    simp [List.mem_range.mp hi]
  rw [hlow, hcount, Nat.even_iff]
  split_ifs with hpassed hzero hbank hodd
  · refine iff_of_false (by simp) ?_
    rintro ⟨hflag, hspecial, -⟩
    simp [hflag, hspecial] at hpassed
  all_goals
    simp only [not_or, Bool.not_eq_true', Bool.not_eq_true, Bool.not_eq_false] at hpassed
  · exact iff_of_false (by simp) fun h => h.2.2.1 hzero
  · exact iff_of_true rfl ⟨hpassed.1, hpassed.2, hzero, .inl hbank⟩
  · exact iff_of_false (by simp) fun h => h.2.2.2.elim hbank hodd
  · exact iff_of_true rfl ⟨hpassed.1, hpassed.2, hzero, .inr (not_not.mp hodd)⟩

lemma checkUuid_isSome : (lintCheckUuid node).isSome ↔ node.attr.kind = .uuid ∧
    ((∀ b ∈ (valueUuid node.block node.offset).bytes, b = 0) ∨
      ∀ b ∈ (valueUuid node.block node.offset).bytes, b = 0xFF) := by
  rw [lintCheckUuid]
  simp only [List.countP_eq_length, beq_iff_eq]
  split_ifs with hkind hzero hones
  · exact iff_of_false (by simp) fun h => hkind h.1
  · exact iff_of_true rfl ⟨not_not.mp hkind, .inl hzero⟩
  · exact iff_of_true rfl ⟨not_not.mp hkind, .inr hones⟩
  · exact iff_of_false (by simp) fun h => h.2.elim hzero hones

lemma lintFaults (node : WalkNode) : LintFaults node where
  invalidEnum := checkEnum_isSome
  reserved := checkReserved_isSome
  reservedBits := checkBits_isSome
  bcd := checkBcd_isSome
  range := checkRange_isSome
  jep106 := checkJep106_isSome
  uuid := checkUuid_isSome

lemma hexTextPadded_length {width n : ℕ} (hwidth : width ≤ 16) (hn : n < 2 ^ 64) :
    (hexTextPadded width n).length ≤ 16 := by
  have hlength : (numeral 16 n).length ≤ 16 := numeral_length_le (by omega) (by omega) hn
  rw [hexTextPadded, List.length_map, pad, List.length_append, List.length_replicate]
  omega

lemma decimalText_length {n : ℕ} (hn : n < 2 ^ 64) : (decimalText n).length ≤ 20 := by
  rw [decimalText, List.length_map]
  exact numeral_length_le (by omega) (by omega) (hn.trans (by norm_num))

lemma signedText_length {n : ℤ} (hn : n.natAbs < 2 ^ 64) : (signedText n).length ≤ 21 := by
  have hlength := decimalText_length hn
  have hsign : (signText (decide (n < 0))).length ≤ 1 := by
    cases decide (n < 0) <;> decide
  rw [signedText, List.length_append]
  omega

lemma derefInt_natAbs (size : ℕ) (bytes : List Byte) :
    (derefInt size bytes).natAbs ≤ 256 ^ size / 2 := by
  have hpos : 0 < 256 ^ size := by positivity
  have hlt := Int.bmod_lt (x := (leLoad (bytes.take size) : ℤ)) hpos
  have hle := Int.le_bmod (x := (leLoad (bytes.take size) : ℤ)) hpos
  rw [derefInt]
  omega

lemma valueNatural_lt (node : WalkNode) (value : List Byte) : valueNatural node value < 2 ^ 64 := by
  have h1 := derefUint_lt 1 value
  have h2 := derefUint_lt 2 value
  have h4 := derefUint_lt 4 value
  have h8 := derefUint_lt 8 value
  rw [valueNatural, attributeGetUint, uintmaxMax]
  split_ifs <;> omega

lemma valueNumber_lt (node : WalkNode) (value : List Byte) :
    (valueNumber node value).natAbs < 2 ^ 64 := by
  rw [valueNumber]
  split_ifs
  · have h1 := derefInt_natAbs 1 value
    have h2 := derefInt_natAbs 2 value
    have h4 := derefInt_natAbs 4 value
    have h8 := derefInt_natAbs 8 value
    rw [valueInt, attributeGetInt, intmaxMax]
    split_ifs <;> omega
  · exact valueNatural_lt node value

lemma reservedBits_le (names : List NameEntry) (bits : ℕ) : lintReservedBits names bits ≤ bits := by
  rw [lintReservedBits]
  simp only
  split_ifs
  · exact Nat.zero_le _
  · exact Nat.and_le_left.trans Nat.and_le_left
  · exact Nat.and_le_left.trans Nat.and_le_left

lemma details_length {rule : LintValueRule} (hrule : rule ∈ lintValueRules)
    (h : rule.handler node = some details) : details.length < lintDetailsSize := by
  have hnatural := valueNatural_lt node (nodeBytes node)
  have hnumber := signedText_length (valueNumber_lt node (nodeBytes node))
  have hid : (hexUpper (valueId node % 2 ^ 32).toNat).length ≤ 16 :=
    hexTextPadded_length (by omega) (by omega)
  simp only [lintValueRules, List.mem_cons, List.not_mem_nil, or_false] at hrule
  rw [lintDetailsSize]
  rcases hrule with rfl | rfl | rfl | rfl | rfl | rfl | rfl
  · simp only [lintValueInvalidEnumRule, lintValueRule, lintCheckEnum] at h
    split at h
    · cases h
    split_ifs at h
    obtain rfl := Option.some.inj h
    simp only [List.length_append]
    change 8 + _ + 46 < 192
    omega
  · simp only [lintValueReservedRule, lintValueRule, lintCheckReserved] at h
    split at h
    · cases h
    split_ifs at h
    obtain rfl := Option.some.inj h
    simp only [List.length_append]
    change 8 + _ + 33 < 192
    omega
  · simp only [lintValueReservedBitsRule, lintValueRule, lintCheckBits] at h
    split at h
    · cases h
    split_ifs at h
    obtain rfl := Option.some.inj h
    have hbits : ∀ names, (hexUpper (lintReservedBits names
        (valueNatural node (nodeBytes node)))).length ≤ 16 := fun names =>
      hexTextPadded_length (by omega) ((reservedBits_le names _).trans_lt hnatural)
    simp only [List.length_append]
    refine lt_of_le_of_lt (add_le_add_left (add_le_add_right (hbits _) _) _) ?_
    decide
  · simp only [lintValueBcdRule, lintValueRule, lintCheckBcd] at h
    split_ifs at h
    obtain rfl := Option.some.inj h
    have hbcd : (hexUpper (valueNatural node (nodeBytes node))).length ≤ 16 :=
      hexTextPadded_length (by omega) hnatural
    simp only [List.length_append]
    change 8 + _ + 30 < 192
    omega
  · simp only [lintValueRangeRule, lintValueRule, lintCheckRange] at h
    split_ifs at h
    obtain h | ⟨-, h⟩ := Option.or_eq_some_iff.mp h
    all_goals
      split at h
      · cases h
      split_ifs at h
      obtain rfl := Option.some.inj h
      simp only [List.length_append]
    · rename_i minimum _ _ _
      have hlimit := signedText_length (valueNumber_lt node minimum)
      change 6 + _ + 25 + _ < 192
      omega
    · rename_i maximum _ _ _
      have hlimit := signedText_length (valueNumber_lt node maximum)
      change 6 + _ + 25 + _ < 192
      omega
  · simp only [lintValueJep106Rule, lintValueRule, lintCheckJep106] at h
    have hcode : (hexTextPadded 4 (valueNatural node (nodeBytes node))).length ≤ 16 :=
      hexTextPadded_length (by omega) hnatural
    split_ifs at h
    all_goals
      obtain rfl := Option.some.inj h
      simp only [List.length_append]
    · have hbank : (decimalText ((valueNatural node (nodeBytes node) &&& 0x7F) + 1)).length ≤ 20 :=
        decimalText_length (lt_of_le_of_lt (Nat.succ_le_succ Nat.and_le_right) (by norm_num))
      change 7 + _ + 15 + _ + 28 + 1 + 8 < 192
      omega
    · change 7 + _ + 74 < 192
      omega
  · simp only [lintValueUuidRule, lintValueRule, lintCheckUuid] at h
    split_ifs at h
    all_goals
      obtain rfl := Option.some.inj h
      decide

section Run

variable (options : LintOptions) (table : Buffer) (entity : Entity)

lemma visit_allM (rule : LintValueRule) (nodes : List WalkNode) (reports : List LintReport) :
    (nodes.allM (lintValueVisit options table entity rule)).run reports =
      (true, reports ++ nodes.filterMap fun node =>
        (rule.handler node).map (lintValueReport options table entity rule node)) := by
  induction nodes generalizing reports with
  | nil =>
    rw [List.filterMap_nil, List.append_nil]
    rfl
  | cons node nodes ih =>
    rw [Script.allM_cons, List.filterMap_cons]
    cases h : rule.handler node with
    | none =>
      have hvisit : lintValueVisit options table entity rule node = pure true := by
        rw [lintValueVisit, h]
      rw [hvisit, Script.true_andM]
      exact ih reports
    | some details =>
      let report := lintValueReport options table entity rule node details
      have hvisit : (lintValueVisit options table entity rule node).run reports =
          (true, reports ++ [report]) := by
        rw [lintValueVisit, h]
        rfl
      have hrest := ih (reports ++ [report])
      rw [Script.andM_run, hvisit, if_pos rfl, hrest, List.append_assoc]
      rfl

lemma valueWalk_reports (attrs : List AttributeSpec) (info : Memory) (rule : LintValueRule)
    (reports : List LintReport) :
    ((lintValueWalk options table entity (some attrs) (some info) rule).run reports).2 =
      reports ++ (leavesOf (attributesTree attrs info 0)).filterMap fun node =>
        (rule.handler node).map (lintValueReport options table entity rule node) := by
  have hwalk : (lintValueWalk options table entity (some attrs) (some info) rule).run reports =
      ((), (((valueVisitor (lintValueVisit options table entity rule)).attributesWalk attrs info
        0).run reports).2) := rfl
  rw [hwalk, AttributeVisitor.attributesWalk_tree, walkMembers_values, visit_allM]

def itemText : Option ℕ → List Byte
  | none => []
  | some index => stringBytes "item " ++ decimalText index ++ stringBytes ": "

lemma report_message {rule : LintValueRule} (hrule : rule ∈ lintValueRules)
    (h : rule.handler node = some details) (hindex : ∀ index ∈ node.index, index < 2 ^ 64) :
    (lintValueReport options table entity rule node details).message =
      itemText node.index ++ details := by
  have hlength := details_length hrule h
  have hcut : textCut lintDetailsSize details = details :=
    List.take_of_length_le (Nat.le_sub_one_of_lt hlength)
  rw [lintDetailsSize] at hlength
  rw [lintValueReport]
  simp only [hcut]
  cases hi : node.index with
  | none =>
    refine List.take_of_length_le ?_
    change details.length ≤ 255
    omega
  | some index =>
    have hdecimal := decimalText_length (hindex index hi)
    refine List.take_of_length_le ?_
    simp only [List.length_append]
    change 5 + _ + 2 + _ ≤ 255
    omega

/-- The reports of a check of the values of a structure, by rules of which some may be disabled:
rule by rule, and value by value along its tree. -/
def valueReports (rules : List LintValueRule) (nodes : List WalkNode) : List LintReport :=
  (rules.filter (lintEnabled options)).flatMap fun rule =>
    nodes.filterMap fun node =>
      (rule.handler node).map (lintValueReport options table entity rule node)

lemma checkValues_reports (rules : List LintValueRule) (attrs : List AttributeSpec) (info : Memory)
    (reports : List LintReport) :
    ((lintCheckValues options table entity rules (some attrs) (some info)).run reports).2 =
      reports ++ valueReports options table entity rules (leavesOf (attributesTree attrs info 0)) := by
  induction rules generalizing reports with
  | nil => exact (List.append_nil _).symm
  | cons rule rules ih =>
    have hnext : ((lintCheckValues options table entity (rule :: rules) (some attrs)
        (some info)).run reports).2 =
        ((lintCheckValues options table entity rules (some attrs) (some info)).run
          ((if lintEnabled options rule then
            lintValueWalk options table entity (some attrs) (some info) rule
            else pure ()).run reports).2).2 := rfl
    rw [hnext, ih, valueReports, valueReports, List.filter_cons]
    by_cases henabled : lintEnabled options rule = true
    · rw [if_pos henabled, if_pos henabled, valueWalk_reports, List.flatMap_cons, List.append_assoc]
    · rw [if_neg henabled, if_neg henabled]
      rfl

end Run

end Exact

/-- A check of the values of a structure reports the faults of each rule which is enabled and of
nothing else, each once, in the order of the rules and then of the values in the tree of the
structure, under the severity of its profile and with its text whole. -/
theorem lint_values_exact (options : LintOptions) (table : Buffer) (entity : Entity)
    (attrs : List AttributeSpec) (info : Memory) (reports : List LintReport) :
    let nodes := leavesOf (attributesTree attrs info 0)
    ((lintCheckValues options table entity lintValueRules (some attrs) (some info)).run reports).2 =
        reports ++ valueReports options table entity lintValueRules nodes ∧
      (∀ node, LintFaults node) ∧
      (∀ rule ∈ lintValueRules, ∀ node details, rule.handler node = some details →
        (∀ index ∈ node.index, index < 2 ^ 64) →
        (lintValueReport options table entity rule node details).message =
          itemText node.index ++ details) ∧
      ∀ report ∈ valueReports options table entity lintValueRules nodes, report.severity ≠ .none := by
  intro nodes
  refine ⟨checkValues_reports options table entity lintValueRules attrs info reports, lintFaults,
    fun rule hrule node details h hindex => report_message options table entity hrule h hindex,
    fun report hreport => ?_⟩
  · obtain ⟨rule, hrule, hreport⟩ := List.mem_flatMap.mp hreport
    obtain ⟨node, -, hreport⟩ := List.mem_filterMap.mp hreport
    obtain ⟨details, -, rfl⟩ := Option.map_eq_some_iff.mp hreport
    have henabled := List.of_mem_filter hrule
    intro hnone
    have hseverity : lintRuleSeverity rule options.profile = .none := hnone
    rw [lintEnabled, hseverity, if_pos rfl, ite_self] at henabled
    cases henabled

end OpenDmi
