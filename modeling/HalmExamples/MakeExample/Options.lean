import HalmExamples.MakeExample.Program

/-!
# What an option means

The values that the entries are to have, and the texts that `parse_config` reads as another
one.  `int` in base 16 takes far more than numerals that begin with `0x`.
-/

set_option autoImplicit false

namespace HalmExamples.MakeExample

open Foundation

/-! ## The meaning of a value -/

def numeral? (base : Nat) (text : Text) : Option Nat :=
  if text = [] then none else Numeral.read? base (digit? base) text

def decimal? (text : Text) : Option Int :=
  (numeral? 10 (unsigned text)).map (withSign (isNegative text))

def hexadecimal? : Text → Option Int
  | '0' :: 'x' :: digits => (numeral? 16 digits).map (withSign false)
  | _ => none

def meaning (text : Text) : Value :=
  if text = trueText then .boolean true
  else if text = falseText then .boolean false
  else
    match decimal? text with
    | some value => .integer value
    | none =>
        match hexadecimal? text with
        | some value => .integer value
        | none => .text text

/-- Digits and single underscores between them, after blanks, a sign and `0x` that may be there. -/
def Python.AcceptsHexadecimal (python : Python) (text : Text) : Prop :=
  let groups := (withoutPrefix (unsigned (strip (text.map python.toAscii)))).splitOn '_'
  [] ∉ groups ∧ ∀ character ∈ groups.flatten, (digit? 16 character).isSome

theorem all_ne_nil_iff (groups : List Text) :
    groups.all (fun group => !group.isEmpty) = true ↔ [] ∉ groups := by
  simp only [List.all_eq_true, Bool.not_eq_true', List.isEmpty_eq_false_iff]
  exact ⟨fun all member => all [] member rfl, fun none group member empty => none (empty ▸ member)⟩

instance (python : Python) (text : Text) : Decidable (python.AcceptsHexadecimal text) :=
  let groups := (withoutPrefix (unsigned (strip (text.map python.toAscii)))).splitOn '_'
  decidable_of_iff (groups.all (fun group => !group.isEmpty) = true ∧
      groups.flatten.all (fun symbol => (digit? 16 symbol).isSome) = true)
    (and_congr (all_ne_nil_iff groups) List.all_eq_true)

/-- A decimal numeral is within the limit of the interpreter or takes one digit, and what is no
numeral at all is not taken for a hexadecimal one either. -/
def Python.Clear (python : Python) (text : Text) : Prop :=
  match decimal? text with
  | some value => python.Converts (unsigned text).length ∨ value.natAbs < 10
  | none => hexadecimal? text = none → ¬ python.AcceptsHexadecimal text

instance (python : Python) (text : Text) : Decidable (python.Clear text) := by
  unfold Python.Clear
  split <;> infer_instance

/-! ## Characters of numerals -/

theorem symbolValue?_eq (character : Char) :
    symbolValue? character =
      if 48 ≤ character.toNat ∧ character.toNat ≤ 57 then some (character.toNat - 48)
      else if 97 ≤ character.toNat ∧ character.toNat ≤ 122 then some (character.toNat - 87)
      else if 65 ≤ character.toNat ∧ character.toNat ≤ 90 then some (character.toNat - 55)
      else none := by
  simp only [symbolValue?, Char.le_def, UInt32.le_iff_toNat_le]
  rfl

theorem digit?_eq_some {base digit : Nat} {character : Char}
    (is : digit? base character = some digit) :
    symbolValue? character = some digit ∧ digit < base := by
  simpa [digit?, Option.filter_eq_some_iff] using is

theorem digit?_mono {small large digit : Nat} {character : Char} (le : small ≤ large)
    (is : digit? small character = some digit) : digit? large character = some digit := by
  obtain ⟨value, below⟩ := digit?_eq_some is
  simp [digit?, Option.filter_eq_some_iff, value]
  omega

theorem symbol_range {character : Char} {digit : Nat} (is : symbolValue? character = some digit) :
    48 ≤ character.toNat ∧ character.toNat ≤ 57 ∧ digit < 10 ∨
      65 ≤ character.toNat ∧ character.toNat ≤ 122 ∧ character.toNat ≠ 95 ∧ 10 ≤ digit := by
  rw [symbolValue?_eq] at is
  split at is
  · cases is
    omega
  · split at is
    · cases is
      omega
    · split at is
      · cases is
        omega
      · simp at is

/-- What `int` neither replaces nor takes away. -/
structure Plain (character : Char) : Prop where
  ascii : character.toNat < 127
  solid : isAsciiSpace character = false

instance (character : Char) : Decidable (Plain character) :=
  decidable_of_iff (character.toNat < 127 ∧ isAsciiSpace character = false)
    ⟨fun plain => ⟨plain.1, plain.2⟩, fun plain => ⟨plain.ascii, plain.solid⟩⟩

theorem plain_of_all (text : Text) (all : text.all (fun character => Plain character) = true) :
    ∀ character ∈ text, Plain character := by simpa using all

theorem plain_of_digit {base : Nat} {character : Char} (is : (digit? base character).isSome) :
    Plain character ∧ character ≠ '_' := by
  obtain ⟨digit, is⟩ := Option.isSome_iff_exists.mp is
  have range := symbol_range (digit?_eq_some is).1
  refine ⟨⟨by omega, ?_⟩, ?_⟩
  · rw [isAsciiSpace, Bool.or_eq_false_iff, Bool.and_eq_false_iff]
    refine ⟨decide_eq_false ?_, Or.inr (decide_eq_false (by omega))⟩
    rintro rfl
    simp at range
  · rintro rfl
    simp at range

theorem unmarked_of_digit {character : Char} (is : (digit? 10 character).isSome) :
    character ≠ 'x' ∧ character ≠ 'X' := by
  constructor <;> rintro rfl <;> exact absurd is (by decide)

theorem withoutPrefix_eq (text : Text)
    (unmarked : ∀ character ∈ text, character ≠ 'x' ∧ character ≠ 'X') :
    withoutPrefix text = text := by
  unfold withoutPrefix
  split <;> simp_all

/-! ## What `int` reads -/

theorem cleaned_eq (python : Python) (text : Text) (plain : ∀ character ∈ text, Plain character) :
    strip (text.map python.toAscii) = text := by
  have same : text.map python.toAscii = text := by
    conv_rhs => rw [← List.map_id text]
    exact List.map_congr_left fun character member => if_pos (plain character member).ascii
  have stripped (text : Text) (plain : ∀ character ∈ text, Plain character) :
      text.dropWhile isAsciiSpace = text := by
    cases text with
    | nil => rfl
    | cons first rest =>
        exact List.dropWhile_cons_of_neg (by simp [(plain first List.mem_cons_self).solid])
  rw [same, strip, stripped text plain, stripped text.reverse, List.reverse_reverse]
  intro character member
  exact plain character (List.mem_reverse.mp member)

theorem digits?_eq (base : Nat) (text : Text) (some : text ≠ [])
    (joined : ∀ character ∈ text, character ≠ '_') :
    digits? base text = text.mapM (digit? base) := by
  have single : text.splitOn '_' = [text] :=
    List.splitOn_eq_singleton fun member => joined '_' member rfl
  simp [digits?, single, some.symm]

/-- The groups lose nothing but the underscores. -/
theorem mem_flatten_splitOn {separator character : Char} {text : Text} (member : character ∈ text)
    (other : character ≠ separator) : character ∈ (text.splitOn separator).flatten := by
  induction text with
  | nil => simp at member
  | cons first rest ih =>
      obtain ⟨group, groups, split⟩ :=
        List.exists_cons_of_ne_nil (List.splitOn_ne_nil separator rest)
      rw [List.splitOn_cons_eq_if_modifyHead]
      rw [split] at ih ⊢
      rcases List.mem_cons.mp member with rfl | later
      · simp [other]
      · by_cases is : first = separator
        · simpa [is] using ih later
        · have := ih later
          simp [is] at this ⊢
          tauto

theorem digits?_isSome_iff (base : Nat) (text : Text) :
    (digits? base text).isSome ↔ [] ∉ text.splitOn '_' ∧
      ∀ character ∈ (text.splitOn '_').flatten, (digit? base character).isSome := by
  rw [digits?, ← Numeral.mapM_isSome_iff]
  by_cases gap : [] ∈ text.splitOn '_' <;> simp [gap]

theorem int?_sixteen_isSome_iff (python : Python) (text : Text) :
    (python.int? text 16).isSome ↔ python.AcceptsHexadecimal text := by
  have magnitude (text : Text) :
      (python.magnitude? 16 text).isSome ↔ (digits? 16 (withoutPrefix text)).isSome := by
    rw [Python.magnitude?, if_pos rfl]
    cases digits? 16 (withoutPrefix text) <;> simp
  rw [Python.int?, Option.isSome_map, magnitude, digits?_isSome_iff]
  rfl

/-- What is a number in base 10 is one in base 16 too. -/
theorem accepts_of_int?_ten (python : Python) (text : Text)
    (is : (python.int? text 10).isSome) : python.AcceptsHexadecimal text := by
  rw [Python.int?, Option.isSome_map, Python.magnitude?, if_neg (by decide)] at is
  have digits : (digits? 10 (unsigned (strip (text.map python.toAscii)))).isSome := by
    cases read : digits? 10 (unsigned (strip (text.map python.toAscii))) with
    | none => simp [read] at is
    | some digits => rfl
  obtain ⟨full, decimal⟩ := (digits?_isSome_iff 10 _).mp digits
  have bare : withoutPrefix (unsigned (strip (text.map python.toAscii))) =
      unsigned (strip (text.map python.toAscii)) := by
    refine withoutPrefix_eq _ fun character member => ?_
    by_cases joint : character = '_'
    · subst joint
      decide
    · exact unmarked_of_digit (decimal character (mem_flatten_splitOn member joint))
  rw [Python.AcceptsHexadecimal, bare]
  refine ⟨full, fun character member => ?_⟩
  obtain ⟨digit, is⟩ := Option.isSome_iff_exists.mp (decimal character member)
  exact Option.isSome_of_eq_some (digit?_mono (by decide) is)

/-! ## Values -/

theorem below_of_read {base : Nat} {text : Text} {digits : List Nat}
    (each : List.Forall₂ (fun character digit => digit? base character = some digit) text digits) :
    ∀ digit ∈ digits, digit < base := by
  induction each with
  | nil => simp
  | cons is _ ih => exact List.forall_mem_cons.mpr ⟨(digit?_eq_some is).2, ih⟩

/-- The digits of a numeral are read in every base that has them. -/
theorem digits?_of_numeral? {base number : Nat} {text : Text}
    (is : numeral? base text = some number) :
    ∃ digits, Numeral.valueOf base digits = number ∧ digits.length = text.length ∧
      (∀ digit ∈ digits, digit < base) ∧
      (∀ character ∈ text, (digit? base character).isSome) ∧
      ∀ larger, base ≤ larger → digits? larger text = some digits := by
  unfold numeral? Numeral.read? at is
  split at is
  · simp at is
  · rename_i filled
    obtain ⟨digits, read, value⟩ := Option.map_eq_some_iff.mp is
    have each := (Numeral.mapM_eq_some_iff (digit? base) text digits).mp read
    have isDigit := (Numeral.mapM_isSome_iff (digit? base) text).mp (Option.isSome_of_eq_some read)
    refine ⟨digits, value, each.length_eq.symm, below_of_read each, isDigit, fun larger le => ?_⟩
    rw [digits?_eq larger text filled fun character member =>
      (plain_of_digit (isDigit character member)).2, Numeral.mapM_eq_some_iff]
    exact each.imp fun _ _ is => digit?_mono le is

theorem plain_of_unsigned {text : Text}
    (plain : ∀ character ∈ unsigned text, Plain character) :
    ∀ character ∈ text, Plain character := by
  intro character member
  unfold unsigned at plain
  split at plain
  · rcases List.mem_cons.mp member with rfl | later
    · exact ⟨by decide, by decide⟩
    · exact plain character later
  · rcases List.mem_cons.mp member with rfl | later
    · exact ⟨by decide, by decide⟩
    · exact plain character later
  · exact plain character member

theorem withSign_natAbs (negative : Bool) (magnitude : Nat) :
    (withSign negative magnitude).natAbs = magnitude := by
  cases negative <;> simp [withSign]

theorem withSign_injective {negative : Bool} : Function.Injective (withSign negative) := by
  intro left right same
  simpa only [withSign_natAbs] using congrArg Int.natAbs same

/-- The text is read in base 10 where its length is within the limit, and in base 16 otherwise. -/
theorem interpret_decimal (python : Python) (text : Text) (value : Int)
    (decimal : decimal? text = some value) (different : text ≠ trueText ∧ text ≠ falseText) :
    python.interpret text = .integer value ↔
      python.Converts (unsigned text).length ∨ value.natAbs < 10 := by
  obtain ⟨number, numeral, rfl⟩ := Option.map_eq_some_iff.mp decimal
  obtain ⟨digits, rfl, length, below, isDigit, reads⟩ := digits?_of_numeral? numeral
  have clean := cleaned_eq python text (plain_of_unsigned fun character member =>
    (plain_of_digit (isDigit character member)).1)
  have bare := withoutPrefix_eq (unsigned text) fun character member =>
    unmarked_of_digit (isDigit character member)
  have agree := Numeral.valueOf_eq_valueOf_iff 10 16 (by decide) (by decide) digits below
  rw [Python.interpret, if_neg (not_or.mpr different), Python.int?, Python.int?, clean,
    Python.magnitude?, Python.magnitude?, if_neg (by decide), if_pos rfl, bare,
    reads 10 (by decide), reads 16 (by decide), withSign_natAbs, ← length]
  by_cases converts : python.Converts digits.length
  · simp [converts]
  · rw [or_iff_right converts, ← agree]
    simp [converts, withSign_injective.eq_iff]

theorem withoutPrefix_marked (digits : Text) (joined : ∀ character ∈ digits, character ≠ '_') :
    withoutPrefix ('0' :: 'x' :: digits) = digits := by
  cases digits with
  | nil => rfl
  | cons first rest =>
      have := joined first List.mem_cons_self
      unfold withoutPrefix
      split <;> simp_all

/-- What has its prefix and nothing else around it is read as it should be. -/
theorem interpret_hexadecimal (python : Python) (text : Text) (value : Int)
    (hexadecimal : hexadecimal? text = some value)
    (different : text ≠ trueText ∧ text ≠ falseText) :
    python.interpret text = .integer value := by
  unfold hexadecimal? at hexadecimal
  split at hexadecimal
  · rename_i rest
    obtain ⟨number, numeral, rfl⟩ := Option.map_eq_some_iff.mp hexadecimal
    obtain ⟨digits, rfl, _, _, isDigit, reads⟩ := digits?_of_numeral? numeral
    have joined : ∀ character ∈ rest, character ≠ '_' := fun character member =>
      (plain_of_digit (isDigit character member)).2
    have clean := cleaned_eq python ('0' :: 'x' :: rest) (by
      simp only [List.forall_mem_cons]
      exact ⟨⟨by decide, by decide⟩, ⟨by decide, by decide⟩, fun character member =>
        (plain_of_digit (isDigit character member)).1⟩)
    have ten : digits? 10 ('0' :: 'x' :: rest) = none := by
      rw [digits?_eq 10 _ (by simp) (by simpa using joined)]
      by_contra some
      have all := (Numeral.mapM_isSome_iff (digit? 10) _).mp (Option.isSome_iff_ne_none.mpr some)
      exact absurd (all 'x' (by simp)) (by decide)
    have noTen : python.int? ('0' :: 'x' :: rest) 10 = none := by
      rw [Python.int?, clean, unsigned, Python.magnitude?, if_neg (by decide), ten]
      · rfl
      · simp
      · simp
    have inSixteen : python.int? ('0' :: 'x' :: rest) 16 =
        some (withSign false (Numeral.valueOf 16 digits)) := by
      rw [Python.int?, clean, unsigned, Python.magnitude?, if_pos rfl,
        withoutPrefix_marked rest joined, reads 16 (Nat.le_refl 16)]
      · simp [isNegative]
      · simp
      · simp
    rw [Python.interpret, if_neg (not_or.mpr different), noTen, inSixteen]
  · simp at hexadecimal

theorem interpret_other (python : Python) (text : Text)
    (different : text ≠ trueText ∧ text ≠ falseText) :
    python.interpret text = .text text ↔ ¬ python.AcceptsHexadecimal text := by
  rw [Python.interpret, if_neg (not_or.mpr different), ← int?_sixteen_isSome_iff]
  have ten := accepts_of_int?_ten python text
  rw [← int?_sixteen_isSome_iff] at ten
  cases here : python.int? text 10 with
  | some value => simpa [here, Option.isSome_iff_ne_none] using ten
  | none => cases python.int? text 16 <;> simp

/-- A word with a letter that is no digit is no numeral. -/
theorem refuses_word (python : Python) (word : Text)
    (plain : ∀ character ∈ word, Plain character)
    (bare : withoutPrefix (unsigned word) = word) (letter : Char) (member : letter ∈ word)
    (joined : letter ≠ '_') (other : digit? 16 letter = none) :
    ¬ python.AcceptsHexadecimal word := by
  rintro ⟨_, digits⟩
  rw [cleaned_eq python word plain, bare] at digits
  have digit := digits letter (mem_flatten_splitOn member joined)
  simp [other] at digit

theorem clear_trueText (python : Python) : python.Clear trueText := by
  intro _
  have plain := plain_of_all trueText (by decide)
  exact refuses_word python trueText plain rfl 't' (by decide) (by decide) (by decide)

theorem clear_falseText (python : Python) : python.Clear falseText := by
  intro _
  have plain := plain_of_all falseText (by decide)
  exact refuses_word python falseText plain rfl 'l' (by decide) (by decide) (by decide)

theorem interpret_eq_meaning_iff (python : Python) (text : Text) :
    python.interpret text = meaning text ↔ python.Clear text := by
  by_cases isTrue : text = trueText
  · subst isTrue
    exact iff_of_true rfl (clear_trueText python)
  by_cases isFalse : text = falseText
  · subst isFalse
    exact iff_of_true rfl (clear_falseText python)
  rw [meaning, if_neg isTrue, if_neg isFalse, Python.Clear]
  cases decimal : decimal? text with
  | some value => exact interpret_decimal python text value decimal ⟨isTrue, isFalse⟩
  | none =>
      cases hexadecimal : hexadecimal? text with
      | some value =>
          simp [interpret_hexadecimal python text value hexadecimal ⟨isTrue, isFalse⟩]
      | none => simp [interpret_other python text ⟨isTrue, isFalse⟩]

/-! ## Dictionaries -/

/-- The value of the last entry with the key. -/
def lastValue? (entries : List (Text × Text)) (key : Text) : Option Text :=
  entries.reverse.lookup key

def entryText (entry : Text × Text) : Text := entry.1 ++ '=' :: entry.2

/-- The argument of the command line. -/
def configText (entries : List (Text × Text)) : Text := [','].intercalate (entries.map entryText)

def Separable (text : Text) : Prop := ',' ∉ text ∧ '=' ∉ text

instance (text : Text) : Decidable (Separable text) := by
  unfold Separable
  infer_instance

theorem addEntry_entryText (python : Python) (options : Options) (entry : Text × Text)
    (key : Separable entry.1) (value : Separable entry.2) :
    python.addEntry options (entryText entry) =
      options.insert entry.1 (python.interpret entry.2) := by
  have parts : (entryText entry).splitOn '=' = [entry.1, entry.2] := by
    rw [entryText, List.splitOn_append_cons_self_of_not_mem key.2,
      List.splitOn_eq_singleton value.2]
  rw [Python.addEntry, parts]

theorem parseConfig_configText (python : Python) (entries : List (Text × Text))
    (separable : ∀ entry ∈ entries, Separable entry.1 ∧ Separable entry.2) :
    python.parseConfig (configText entries) =
      entries.foldl (fun options entry => options.insert entry.1 (python.interpret entry.2)) ∅ := by
  have whole (entry : Text × Text) (member : entry ∈ entries) : ',' ∉ entryText entry := by
    obtain ⟨key, value⟩ := separable entry member
    simp [entryText, key.1, value.1]
  rw [Python.parseConfig]
  by_cases empty : entries = []
  · subst empty
    rfl
  · rw [configText, List.splitOn_intercalate, List.foldl_map]
    · exact List.foldl_ext _ _ _ fun options entry member =>
        addEntry_entryText python options entry (separable entry member).1
          (separable entry member).2
    · exact List.forall_mem_map.mpr whole
    · simpa using empty

theorem lookup_insertAll (read : Text → Value) (entries : List (Text × Text)) (key : Text) :
    (entries.foldl (fun options entry => options.insert entry.1 (read entry.2))
      (∅ : Options)).lookup key = (lastValue? entries key).map read := by
  induction entries using List.reverseRecOn with
  | nil => rfl
  | append_singleton entries entry ih =>
      rw [List.foldl_append, List.foldl_cons, List.foldl_nil, lastValue?, List.reverse_concat,
        List.lookup_cons]
      by_cases is : key = entry.1
      · subst is
        simp [AList.lookup_insert]
      · rw [AList.lookup_insert_ne is, ih, beq_false_of_ne is]
        rfl

theorem mem_of_lastValue? {entries : List (Text × Text)} {key text : Text}
    (last : lastValue? entries key = some text) : (key, text) ∈ entries := by
  obtain ⟨before, behind, split, _⟩ := List.lookup_eq_some_iff.mp last
  exact List.mem_reverse.mp (split ▸ List.mem_append_right before List.mem_cons_self)

/-- The dictionary has what the entries say, and a text that is no numeral is rendered as it was
given. -/
structure Kept (python : Python) (entries : List (Text × Text)) (options : Options) : Prop where
  values : ∀ key, options.lookup key = (lastValue? entries key).map meaning
  suffixes : ∀ name key text, lastValue? entries key = some text → meaning text = .text text →
    python.renderName? options name key = some (name ++ text)

/-- The options keep their meaning exactly if no text that counts is taken for another numeral. -/
theorem options_kept_iff (python : Python) (entries : List (Text × Text))
    (separable : ∀ entry ∈ entries, Separable entry.1 ∧ Separable entry.2) :
    Kept python entries (python.parseConfig (configText entries)) ↔
      ∀ key text, lastValue? entries key = some text → python.Clear text := by
  have found (key : Text) : (python.parseConfig (configText entries)).lookup key =
      (lastValue? entries key).map python.interpret := by
    rw [parseConfig_configText python entries separable, lookup_insertAll]
  constructor
  · intro kept key text last
    have same := kept.values key
    rw [found, last] at same
    exact (interpret_eq_meaning_iff python text).mp (Option.some.inj same)
  · intro clear
    have values (key : Text) : (python.parseConfig (configText entries)).lookup key =
        (lastValue? entries key).map meaning := by
      rw [found]
      cases last : lastValue? entries key with
      | none => rfl
      | some text =>
          exact congrArg some ((interpret_eq_meaning_iff python text).mpr (clear key text last))
    refine ⟨values, fun name key text last plain => ?_⟩
    rw [Python.renderName?, values, last, Option.map_some, plain]
    rfl

/-- Options as they are given for a memory, with a size that is given twice. -/
theorem options_kept_memory :
    Kept ⟨fun _ => false, fun _ => none, 4300⟩
      [("MEMORY_SUFFIX".toList, "SDRAM".toList), ("MEMORY_SIZE".toList, "0x1000".toList),
        ("MEMORY_SIZE".toList, "1048576".toList)]
      (Python.parseConfig ⟨fun _ => false, fun _ => none, 4300⟩
        (configText [("MEMORY_SUFFIX".toList, "SDRAM".toList),
          ("MEMORY_SIZE".toList, "0x1000".toList), ("MEMORY_SIZE".toList, "1048576".toList)])) :=
  (options_kept_iff _ _ (by decide)).mpr fun key text last =>
    have clear : ∀ entry ∈ [("MEMORY_SUFFIX".toList, "SDRAM".toList),
        ("MEMORY_SIZE".toList, "0x1000".toList), ("MEMORY_SIZE".toList, "1048576".toList)],
        Python.Clear ⟨fun _ => false, fun _ => none, 4300⟩ entry.2 := by decide
    clear (key, text) (mem_of_lastValue? last)

/-- A suffix of hexadecimal digits becomes a number, and the rendered name another one. -/
theorem suffix_misread :
    let python : Python := ⟨fun _ => false, fun _ => none, 4300⟩
    let options := python.parseConfig (configText [("TIMER_SUFFIX".toList, "ADC".toList)])
    options.lookup "TIMER_SUFFIX".toList = some (.integer 2780) ∧
      meaning "ADC".toList = .text "ADC".toList ∧
      python.renderName? options "boardSetupTimer".toList "TIMER_SUFFIX".toList =
        some "boardSetupTimer2780".toList := by
  decide

end HalmExamples.MakeExample
