import OpenDmi.DellTokensRead

namespace OpenDmi

open Bytes

variable {T : Type} {codec : TokenCodec T} {source : Source} {state : DecodeState}
  {out : EncodeState} {version p q : ℕ} {data rest record : List Byte}
  {records : List (List Byte)} {widths : List ℕ}

lemma AtByte.copy (version : ℕ) {length : ℕ} (h : AtByte source p out)
    (hfits : p + length ≤ source.body.length) :
    AtByte source (p + length) (encoderCopy (preserving source version) length out) := by
  have hvalue : out.bitsValue = 0 := by rw [h.value, h.count, bitsAt_zero]
  have hposition := h.position
  subst hposition
  rw [encoderCopy_source h.toOnSource h.count hvalue hfits]
  exact h.upTo (by omega) hfits

lemma bytes_read (codec : TokenCodec T) (hlength : record.length = codec.recordSize) :
    codec.bytes (codec.read (tokenId record) (record.drop 2)) = record := by
  have hlarge := codec.large
  have htake : (record.take 2).length = 2 := by rw [List.length_take]; omega
  have hid : tokenId record < 256 ^ 2 := by
    have hlt := leLoad_lt (record.take 2)
    rwa [htake] at hlt
  have hstore := leStore_leLoad (record.take 2)
  rw [htake] at hstore
  rw [codec.same _ _ hid (by rw [List.length_drop]; omega), tokenId, hstore, List.take_append_drop]

section Preserve

lemma tokensPreserve_nil (codec : TokenCodec T) (encoder : Encoder) (fuel : ℕ) (out : EncodeState) :
    dellTokensPreserve codec encoder (fuel + 1) [] out = some ([], out) := by
  rw [dellTokensPreserve]

lemma tokensPreserve_record (version fuel : ℕ) (token : T) (tokens : List T)
    (h : AtByte source p out) (hrun : TokenRun codec.recordSize (source.body.drop p)
      (record :: records) rest) :
    ∃ next, AtByte source (p + codec.recordSize) next ∧
      (tokenId record = dellTokenUnused →
        dellTokensPreserve codec (preserving source version) (fuel + 1) (token :: tokens) out =
          dellTokensPreserve codec (preserving source version) fuel (token :: tokens) next) ∧
      (tokenId record ≠ dellTokenUnused →
        token = codec.read (tokenId record) (record.drop 2) →
        dellTokensPreserve codec (preserving source version) (fuel + 1) (token :: tokens) out =
          dellTokensPreserve codec (preserving source version) fuel tokens next) := by
  have hlarge := codec.large
  obtain ⟨hlength, hid, hdata, -⟩ := hrun.cons
  have hne : record ≠ [] := by
    rw [← List.length_pos_iff]
    omega
  obtain ⟨hfits, hwindow, -⟩ := window_chunk hdata hne
  rw [hlength] at hfits hwindow
  have hposition := h.position
  have hpeek := encoderPeek_some version (show out.position + 2 ≤ source.body.length by omega)
  have htoken : leLoad (window source.body out.position 2) = tokenId record := by
    rw [tokenId, hposition, window, hdata, List.take_append_of_le_length (by omega)]
  have hremaining : ¬ encoderRemaining (preserving source version) out < codec.recordSize := by
    have hleft : encoderRemaining (preserving source version) out =
        source.body.length - out.position := rfl
    omega
  by_cases hunused : tokenId record = dellTokenUnused
  · refine ⟨_, h.copy version hfits, fun _ => ?_, fun hused => absurd hunused hused⟩
    rw [dellTokensPreserve, hpeek]
    simp only [htoken]
    rw [if_neg (not_or.mpr ⟨hid, hremaining⟩), if_pos hunused]
  · refine ⟨_, h.putBytes version hwindow.symm hfits, fun hpad => absurd hpad hunused,
      fun _ htok => ?_⟩
    rw [dellTokensPreserve, hpeek]
    simp only [htoken]
    rw [if_neg (not_or.mpr ⟨hid, hremaining⟩), if_neg hunused, codec.encode_eq, htok,
      bytes_read codec hlength]

lemma tokensPreserve_run (version : ℕ) {fuel : ℕ} (h : AtByte source p out)
    (hfuel : records.length < fuel)
    (hrun : TokenRun codec.recordSize (source.body.drop p) records rest) :
    ∃ q next, AtByte source q next ∧
      dellTokensPreserve codec (preserving source version) fuel (usedTokens codec records) out =
        some ([], next) := by
  induction records generalizing fuel out p with
  | nil =>
    obtain ⟨fuel, rfl⟩ : ∃ n, fuel = n + 1 := ⟨fuel - 1, by omega⟩
    exact ⟨p, out, h, tokensPreserve_nil codec _ fuel out⟩
  | cons record records ih =>
    obtain ⟨fuel, rfl⟩ : ∃ n, fuel = n + 1 := ⟨fuel - 1, by omega⟩
    rw [List.length_cons] at hfuel
    have hlarge := codec.large
    obtain ⟨hlength, -, hdata, hrest⟩ := hrun.cons
    have hne : record ≠ [] := by
      rw [← List.length_pos_iff]
      omega
    obtain ⟨-, -, hnext⟩ := window_chunk hdata hne
    rw [← hnext, hlength] at hrest
    rw [usedTokens_cons]
    by_cases hunused : tokenId record = dellTokenUnused
    · rw [if_pos hunused]
      cases htokens : usedTokens codec records with
      | nil => exact ⟨p, out, h, tokensPreserve_nil codec _ fuel out⟩
      | cons token tokens =>
        obtain ⟨next, hat, hcopy, -⟩ := tokensPreserve_record version fuel token tokens h hrun
        obtain ⟨q, last, hlast, hwritten⟩ := ih hat (show records.length < fuel by omega) hrest
        rw [htokens] at hwritten
        exact ⟨q, last, hlast, (hcopy hunused).trans hwritten⟩
    · rw [if_neg hunused]
      obtain ⟨next, hat, -, hput⟩ := tokensPreserve_record version fuel
        (codec.read (tokenId record) (record.drop 2)) (usedTokens codec records) h hrun
      obtain ⟨q, last, hlast, hwritten⟩ := ih hat (show records.length < fuel by omega) hrest
      exact ⟨q, last, hlast, (hput hunused rfl).trans hwritten⟩

end Preserve

section Numbers

def numbersOf : List ℕ → List Byte → List ℕ
  | [], _ => []
  | width :: widths, data => leLoad (data.take width) :: numbersOf widths (data.drop width)

def numbersBytes (widths numbers : List ℕ) : List Byte := (List.zipWith leStore widths numbers).flatten

lemma numbersOf_append (h : widths.sum ≤ data.length) :
    numbersOf widths (data ++ rest) = numbersOf widths data := by
  induction widths generalizing data with
  | nil => rfl
  | cons width widths ih =>
    rw [List.sum_cons] at h
    rw [numbersOf, numbersOf, List.take_append_of_le_length (by omega),
      List.drop_append_of_le_length (by omega), ih (by rw [List.length_drop]; omega)]

lemma numbersBytes_numbersOf (h : widths.sum ≤ data.length) :
    numbersBytes widths (numbersOf widths data) = data.take widths.sum := by
  induction widths generalizing data with
  | nil => rfl
  | cons width widths ih =>
    rw [List.sum_cons] at h
    have hstore := leStore_leLoad (data.take width)
    rw [List.length_take, min_eq_left (by omega)] at hstore
    have hrest := @ih (data.drop width) (by rw [List.length_drop]; omega)
    rw [numbersBytes] at hrest
    rw [numbersBytes, numbersOf, List.zipWith_cons_cons, List.flatten_cons, hstore, hrest,
      List.sum_cons, List.take_add]

lemma numbersGet_fits (h : state.position + widths.sum ≤ source.body.length) :
    numbersGet source widths state =
      some (numbersOf widths (source.body.drop state.position),
        { state with position := state.position + widths.sum }) := by
  induction widths generalizing state with
  | nil => rfl
  | cons width widths ih =>
    rw [List.sum_cons] at h
    have hrest := @ih { state with position := state.position + width }
      (by rw [← Nat.add_assoc] at h; exact h)
    rw [numbersGet, decoderGet_fits (by omega), Option.bind_some]
    simp only [hrest, Option.map_some, numbersOf, window, List.drop_drop, List.sum_cons,
      Nat.add_assoc]

lemma numbersGet_short (hon : state.position ≤ source.body.length)
    (h : ¬ state.position + widths.sum ≤ source.body.length) :
    numbersGet source widths state = none := by
  induction widths generalizing state with
  | nil => exact absurd hon h
  | cons width widths ih =>
    rw [List.sum_cons, ← Nat.add_assoc] at h
    rw [numbersGet]
    by_cases hfits : state.position + width ≤ source.body.length
    · have hrest := @ih { state with position := state.position + width } hfits h
      rw [decoderGet_fits hfits, Option.bind_some]
      simp only [hrest, Option.map_none]
    · rw [decoderGet_short hfits]
      rfl

lemma numbersPut_eq (encoder : Encoder) (widths : List ℕ) (data : List Byte) (out : EncodeState) :
    numbersPut encoder widths (numbersOf widths data) out =
      putBytes encoder (numbersBytes widths (numbersOf widths data)) out := by
  induction widths generalizing data out with
  | nil => simp [numbersPut, numbersBytes, putBytes]
  | cons width widths ih =>
    rw [numbersOf, numbersPut, ih, putBytes_putBytes]
    rfl

end Numbers

section Canonical

lemma usedTokens_bytes (h : ∀ record ∈ records, record.length = codec.recordSize) :
    (usedTokens codec records).map codec.bytes =
      records.filter fun record => tokenId record != dellTokenUnused := by
  rw [usedTokens, List.map_map]
  refine (List.map_congr_left fun record hm => ?_).trans (List.map_id _)
  exact bytes_read codec (h record (List.mem_filter.mp hm).1)

lemma tokensWrite_eq (encoder : Encoder) (tokens : List T) (out : EncodeState) :
    dellTokensWrite codec encoder tokens out =
      putBytes encoder (tokens.map codec.bytes).flatten out := by
  induction tokens generalizing out with
  | nil => simp [dellTokensWrite, putBytes]
  | cons token tokens ih =>
    have hstep : dellTokensWrite codec encoder (token :: tokens) out =
        dellTokensWrite codec encoder tokens (codec.encode encoder token out) := rfl
    rw [hstep, ih, codec.encode_eq, putBytes_putBytes]
    rfl

lemma flatten_length {size : ℕ} (h : ∀ record ∈ records, record.length = size) :
    records.flatten.length = size * records.length := by
  induction records with
  | nil => rfl
  | cons record records ih =>
    rw [List.flatten_cons, List.length_append, h record List.mem_cons_self,
      ih fun record hm => h record (List.mem_cons_of_mem _ hm), List.length_cons, Nat.mul_succ,
      Nat.add_comm]

def dellBytes (layout : DellLayout T) (info : DellTokens T) : List Byte :=
  numbersBytes layout.widths info.numbers ++
    ((info.tokens.map layout.codec.bytes).flatten ++ leStore 2 dellTokenEot)

lemma dellWritten_anew (layout : DellLayout T) (source : Source) (version : ℕ) (data : List Byte)
    (tokens : List T) :
    ∃ out, dellWritten layout (anew source version) ⟨numbersOf layout.widths data, tokens⟩ =
        some out ∧ out.strings = [] ∧ out.written = header source.typeId 0 source.handle ++
          dellBytes layout ⟨numbersOf layout.widths data, tokens⟩ := by
  rw [dellWritten, dellEncode, dellTokensEncode]
  simp only [numbersPut_eq, tokensWrite_eq, putBytes_putBytes, Option.map_some]
  refine ⟨_, rfl, rfl, ?_⟩
  simp only [encoderCopy, encoderRemaining, encoderInitialize, putBytes, List.nil_append,
    dellBytes, List.append_assoc]

lemma tokenRun_used {size : ℕ} (hrun : TokenRun size data records rest) :
    TokenRun size ((records.filter fun record => tokenId record != dellTokenUnused).flatten ++
        leStore 2 dellTokenEot)
      (records.filter fun record => tokenId record != dellTokenUnused) (leStore 2 dellTokenEot) :=
  ⟨rfl, fun record hm => hrun.whole record (List.mem_filter.mp hm).1, .inl ⟨le_rfl, rfl⟩⟩

lemma usedTokens_used (codec : TokenCodec T) (records : List (List Byte)) :
    usedTokens codec (records.filter fun record => tokenId record != dellTokenUnused) =
      usedTokens codec records := by
  rw [usedTokens, List.filter_filter, usedTokens]
  simp only [Bool.and_self]

lemma dellDecode_run (layout : DellLayout T) (level : ℕ)
    (hlong : headerSize + layout.widths.sum ≤ source.body.length)
    (hrun : TokenRun layout.codec.recordSize
      (source.body.drop (headerSize + layout.widths.sum)) records rest) :
    ∃ after, dellDecode layout source level = some (true,
      ⟨numbersOf layout.widths (source.body.drop headerSize), usedTokens layout.codec records⟩,
      after) := by
  have hget := @numbersGet_fits source (decoderInitialize level) layout.widths hlong
  obtain ⟨⟨after, hdecode⟩, -⟩ := @tokensDecode_run T layout.codec source
    { decoderInitialize level with position := headerSize + layout.widths.sum } rest records hrun
  rw [dellDecode, hget]
  simp only [decoderInitialize] at hdecode ⊢
  rw [hdecode]
  exact ⟨after, rfl⟩

lemma dellCanonical_eq (layout : DellLayout T) (source : Source) (version : ℕ) (data : List Byte)
    (tokens : List T) :
    dellCanonical layout source version ⟨numbersOf layout.widths data, tokens⟩ =
      if headerSize + (dellBytes layout ⟨numbersOf layout.widths data, tokens⟩).length ≤ 255 then
        some (writtenBody source (dellBytes layout ⟨numbersOf layout.widths data, tokens⟩) ++
          stringSetBytes [])
      else none := by
  obtain ⟨out, hwritten, hstrings, hbytes⟩ :=
    dellWritten_anew layout source version data tokens
  rw [dellCanonical, hwritten, Option.bind_some, encoderFinish_anew version hbytes]
  split_ifs
  · rw [Option.map_some, hstrings]
    rfl
  · rfl

structure TokensHeld (codec : TokenCodec T) (source : Source) (before : DecodeState)
    (tokens : List T) : Prop where
  room : tokens.length ≤ dellTokensCapacity codec source before
  used : ∃ records rest, TokenRun codec.recordSize (source.body.drop before.position) records rest ∧
    tokens = usedTokens codec records

lemma dell_preserved (layout : DellLayout T) (version : ℕ) (hs : SourceOk source)
    (hlong : headerSize + layout.widths.sum ≤ source.body.length)
    (hrun : TokenRun layout.codec.recordSize
      (source.body.drop (headerSize + layout.widths.sum)) records rest) :
    (dellWritten layout (preserving source version)
        ⟨numbersOf layout.widths (source.body.drop headerSize), usedTokens layout.codec records⟩).bind
      (encoderFinish (preserving source version)) = some source.body := by
  have hlarge := layout.codec.large
  have hbytes := @numbersBytes_numbersOf (source.body.drop headerSize) layout.widths
    (by rw [List.length_drop]; omega)
  have hbegin : AtByte source headerSize (encoderInitialize (preserving source version)) :=
    encoderInitialize_atByte version (by omega)
  have hstart := hbegin.putBytes version hbytes hlong
  rw [← numbersPut_eq] at hstart
  have hfew := hrun.length
  rw [List.length_drop] at hfew
  have hcount : records.length ≤ records.length * layout.codec.recordSize :=
    Nat.le_mul_of_pos_right _ (by omega)
  have hleft : encoderRemaining (preserving source version) (numbersPut (preserving source version)
      layout.widths (numbersOf layout.widths (source.body.drop headerSize))
      (encoderInitialize (preserving source version))) =
        source.body.length - (headerSize + layout.widths.sum) := by
    rw [← hstart.position]
    rfl
  obtain ⟨q, out, hat, hwritten⟩ := tokensPreserve_run version hstart
    (show records.length < source.body.length - (headerSize + layout.widths.sum) + 1 by omega) hrun
  rw [dellWritten, dellEncode, dellTokensEncode]
  simp only [hleft, hwritten, Option.map_some, Option.bind_some, dellTokensWrite, List.foldl_nil]
  exact hat.finish version hs

lemma dellBytes_length (layout : DellLayout T)
    (hlong : headerSize + layout.widths.sum ≤ source.body.length)
    (hwhole : ∀ record ∈ records, record.length = layout.codec.recordSize) :
    (dellBytes layout ⟨numbersOf layout.widths (source.body.drop headerSize),
      usedTokens layout.codec records⟩).length = layout.widths.sum +
        (layout.codec.recordSize * (usedTokens layout.codec records).length + 2) := by
  have hbytes := @numbersBytes_numbersOf (source.body.drop headerSize) layout.widths
    (by rw [List.length_drop]; omega)
  have hlength : (usedTokens layout.codec records).length =
      (records.filter fun record => tokenId record != dellTokenUnused).length := by
    rw [usedTokens, List.length_map]
  rw [dellBytes, List.length_append, hbytes, List.length_take, List.length_drop,
    min_eq_left (by omega), List.length_append, usedTokens_bytes hwhole,
    flatten_length fun record hm => hwhole record (List.mem_filter.mp hm).1, hlength,
    leStore_length]

lemma dell_again (layout : DellLayout T) (version tableVersion level address : ℕ) {bytes : List Byte}
    (hlong : headerSize + layout.widths.sum ≤ source.body.length)
    (hrun : TokenRun layout.codec.recordSize
      (source.body.drop (headerSize + layout.widths.sum)) records rest)
    (hcanonical : dellCanonical layout source version ⟨numbersOf layout.widths
      (source.body.drop headerSize), usedTokens layout.codec records⟩ = some bytes) :
    ∃ written next, entityCreate ⟨address, bytes⟩ 0 = .ok written ∧
      dellDecode layout (entitySource written tableVersion) level = some (true, ⟨numbersOf
        layout.widths (source.body.drop headerSize), usedTokens layout.codec records⟩, next) := by
  have hwhole : ∀ record ∈ records, record.length = layout.codec.recordSize :=
    fun record hm => (hrun.whole record hm).1
  have hnumbers := @numbersBytes_numbersOf (source.body.drop headerSize) layout.widths
    (by rw [List.length_drop]; omega)
  have hlength := dellBytes_length layout hlong hwhole
  rw [dellCanonical_eq] at hcanonical
  split_ifs at hcanonical with hfits
  generalize hanew : dellBytes layout ⟨numbersOf layout.widths (source.body.drop headerSize),
    usedTokens layout.codec records⟩ = anewBytes at hcanonical hfits hlength
  obtain rfl := Option.some.inj hcanonical
  have hdeclares := @writtenBody_declares source anewBytes hfits
  have hnone : ∀ text ∈ ([] : List (List Byte)), IsText text := by simp
  obtain ⟨written, hcreated, hback⟩ := entityCreate_structureBytes address
    (by rw [writtenBody_length]; omega) hdeclares hnone
  have hbody : (entitySource written tableVersion).body = writtenBody source anewBytes :=
    hback.source tableVersion
  have hdrop : (entitySource written tableVersion).body.drop headerSize = anewBytes := by
    rw [hbody, writtenBody_drop]
  have hsplit : anewBytes = (source.body.drop headerSize).take layout.widths.sum ++
      ((records.filter fun record => tokenId record != dellTokenUnused).flatten ++
        leStore 2 dellTokenEot) := by
    rw [← hanew, dellBytes, hnumbers, usedTokens_bytes hwhole]
  have htake : ((source.body.drop headerSize).take layout.widths.sum).length =
      layout.widths.sum := by
    rw [List.length_take, List.length_drop]
    omega
  have hrest : (entitySource written tableVersion).body.drop (headerSize + layout.widths.sum) =
      (records.filter fun record => tokenId record != dellTokenUnused).flatten ++
        leStore 2 dellTokenEot := by
    rw [← List.drop_drop, hdrop, hsplit, List.drop_left' htake]
  obtain ⟨next, hread⟩ := dellDecode_run layout level
    (by rw [hbody, writtenBody_length]; omega) (hrest.symm ▸ tokenRun_used hrun)
  have hsame : numbersOf layout.widths anewBytes =
      numbersOf layout.widths (source.body.drop headerSize) := by
    rw [hsplit, numbersOf_append htake.ge]
    conv_rhs => rw [← List.take_append_drop layout.widths.sum (source.body.drop headerSize)]
    rw [numbersOf_append htake.ge]
  refine ⟨written, next, hcreated, ?_⟩
  rw [hread, hdrop, hsame, usedTokens_used]

/-- A structure shorter than its members is not decoded. Of another one, the used tokens are held, of
which there are as many as there is room for, it is written as the body it has been read from, and
written anew it is read as the same members and tokens. It can be written anew when it fits, as any
structure does where the marker fits past the tokens there is room for. -/
theorem dellTokens_round_trips (layout : DellLayout T) {buffer : Buffer}
    {offset level tableVersion version : ℕ} {entity : Entity}
    (hcreate : entityCreate buffer offset = .ok entity) :
    let source := entitySource entity tableVersion
    (source.body.length < headerSize + layout.widths.sum ∧
      ∃ info after, dellDecode layout source level = some (false, info, after)) ∨
    ∃ info before after, dellDecode layout source level = some (true, info, after) ∧
      numbersGet source layout.widths (decoderInitialize level) = some (info.numbers, before) ∧
      TokensHeld layout.codec source before info.tokens ∧
      (dellWritten layout (preserving source version) info).bind
        (encoderFinish (preserving source version)) = some source.body ∧
      ((dellCanonical layout source version info).isSome ↔ headerSize + layout.widths.sum +
        layout.codec.recordSize * info.tokens.length + 2 ≤ 255) ∧
      (2 ≤ (255 - (headerSize + layout.widths.sum)) % layout.codec.recordSize →
        (dellCanonical layout source version info).isSome) ∧
      ∀ bytes, dellCanonical layout source version info = some bytes → ∀ address,
        ∃ written next, entityCreate ⟨address, bytes⟩ 0 = .ok written ∧
          dellDecode layout (entitySource written tableVersion) level =
            some (true, info, next) := by
  intro source
  have hs : SourceOk source := entitySource_ok hcreate
  have hlarge := layout.codec.large
  by_cases hlong : headerSize + layout.widths.sum ≤ source.body.length
  swap
  · left
    have hnone := @numbersGet_short source (decoderInitialize level) layout.widths hs.long hlong
    refine ⟨by omega, ⟨[], []⟩, decoderInitialize level, ?_⟩
    rw [dellDecode, hnone]
  right
  obtain ⟨records, rest, hrun⟩ := tokenRun_exists layout.codec.large
    (source.body.drop (headerSize + layout.widths.sum))
  have hwhole : ∀ record ∈ records, record.length = layout.codec.recordSize :=
    fun record hm => (hrun.whole record hm).1
  obtain ⟨after, hdecode⟩ := dellDecode_run layout level hlong hrun
  have hget := @numbersGet_fits source (decoderInitialize level) layout.widths hlong
  have hheld := (@tokensDecode_run T layout.codec source
    { decoderInitialize level with position := headerSize + layout.widths.sum } rest records hrun).2
  have hfits : (dellCanonical layout source version ⟨numbersOf layout.widths
      (source.body.drop headerSize), usedTokens layout.codec records⟩).isSome ↔
      headerSize + layout.widths.sum +
        layout.codec.recordSize * (usedTokens layout.codec records).length + 2 ≤ 255 := by
    rw [dellCanonical_eq, dellBytes_length layout hlong hwhole]
    split_ifs with hbound
    · simp only [Option.isSome_some, true_iff]
      omega
    · simp only [Option.isSome_none, Bool.false_eq_true, false_iff]
      omega
  refine ⟨_, _, after, hdecode, hget, ⟨hheld, records, rest, hrun, rfl⟩,
    dell_preserved layout version hs hlong hrun, hfits, fun hmarker => hfits.mpr ?_,
    fun bytes hcanonical address => dell_again layout version tableVersion level address hlong hrun
      hcanonical⟩
  have hshort := hs.short
  have hlength := hrun.length
  rw [List.length_drop] at hlength
  have hfew : (usedTokens layout.codec records).length ≤
      (255 - (headerSize + layout.widths.sum)) / layout.codec.recordSize := by
    rw [Nat.le_div_iff_mul_le (by omega)]
    have hused := Nat.mul_le_mul_right layout.codec.recordSize
      (usedTokens_length layout.codec records)
    omega
  have hdivide := Nat.div_add_mod (255 - (headerSize + layout.widths.sum)) layout.codec.recordSize
  have hspace := Nat.mul_le_mul_left layout.codec.recordSize hfew
  omega

end Canonical

/-- There is always room for the marker of both of the structures. -/
example : 2 ≤ (255 - (headerSize + dellIndexedIo.widths.sum)) % dellIndexedIo.codec.recordSize ∧
    2 ≤ (255 - (headerSize + dellCallingIface.widths.sum)) % dellCallingIface.codec.recordSize := by
  decide

/-- A token, an unused record, and a token which is cut. -/
def callingIfaceBody : List Byte :=
  [0xB2, 0, 0xD, 3, 0, 0, 0, 1, 0, 5, 0, 7, 0, 0, 0, 0, 0, 0, 0, 2, 0, 9]

def callingIfaceBuffer : Buffer :=
  ⟨0, [0xDA, 26, 1, 0] ++ callingIfaceBody ++ [0, 0]⟩

def callingIfaceEntity : Entity := ⟨0xDA, 26, 1, callingIfaceBuffer, 0, 2, 28, [], none, none⟩

theorem dellTokens_round_trips_cut :
    (dellWritten dellCallingIface (preserving (entitySource callingIfaceEntity 0) 0)
        ⟨[0xB2, 0xD, 3], [⟨1, 5, 7⟩]⟩).bind
      (encoderFinish (preserving (entitySource callingIfaceEntity 0) 0)) =
        some (entitySource callingIfaceEntity 0).body := by
  have hcreate : entityCreate callingIfaceBuffer 0 = .ok callingIfaceEntity := by decide
  have hread : (dellDecode dellCallingIface (entitySource callingIfaceEntity 0) 0).map (·.2.1) =
      some ⟨[0xB2, 0xD, 3], [⟨1, 5, 7⟩]⟩ := by decide
  have hlong : ¬ (entitySource callingIfaceEntity 0).body.length <
      headerSize + dellCallingIface.widths.sum := by decide
  rcases @dellTokens_round_trips _ dellCallingIface callingIfaceBuffer 0 0 0 0 callingIfaceEntity
    hcreate with ⟨hshort, -⟩ | ⟨info, before, after, hdecode, -, -, hpreserved, -⟩
  · exact absurd hshort hlong
  · rw [hdecode] at hread
    obtain rfl := Option.some.inj hread
    exact hpreserved

end OpenDmi
