import CkbDilithium.Lib.Json

/-!
# The text of a JSON value

Reading back what `JSON.stringify` writes: first a quoted string, then a number, then values by induction on
how they are built. White space before a value is skipped, so the indentation does not matter; a number
ends where no digit, point or exponent follows.
-/

namespace CkbDilithium.Js

/-! ### Strings -/

theorem unescapeLetter_escapeLetter {c letter : UInt16} (h : escapeLetter c = some letter) :
    letter ≠ unit 'u' ∧ unescapeLetter letter = some c := by
  unfold escapeLetter at h
  split_ifs at h with h8 h9 h10 h12 h13 hquote hslash
  all_goals
    subst_vars
    cases h
    decide

theorem escapeLetter_eq_none {c : UInt16} (h : escapeLetter c = none) : c ≠ unit '"' ∧ c ≠ unit '\\' := by
  constructor
  · rintro rfl
    exact absurd h (by decide)
  · rintro rfl
    exact absurd h (by decide)

theorem parseDigits_fourDigits (c : UInt16) : parseDigits 16 (fourDigits c) = some c.toNat := by
  have hlt := c.toNat_lt
  have h₁ := digitVal?_digitUnit (c.toNat / 4096) (by omega)
  have h₂ := digitVal?_digitUnit (c.toNat / 256 % 16) (by omega)
  have h₃ := digitVal?_digitUnit (c.toNat / 16 % 16) (by omega)
  have h₄ := digitVal?_digitUnit (c.toNat % 16) (by omega)
  rw [fourDigits, parseDigits_of_ne_nil (by simp)]
  simp only [parseDigitsFrom, h₁, h₂, h₃, h₄, Option.bind_some, Option.some.injEq]
  omega

/-- A unit that is no quote, no backslash and no control character stands for itself. -/
theorem parseUnits_plain {c : UInt16} (hquote : c ≠ unit '"') (hslash : c ≠ unit '\\') (hcontrol : ¬ c < 32)
    (s : JsString) : parseUnits (c :: s) = (parseUnits s).map fun p => (c :: p.1, p.2) := by
  rw [parseUnits.eq_def]
  simp only [if_neg hquote, if_neg hcontrol, if_pos hslash]

theorem parseUnits_escape {letter c : UInt16} (hu : letter ≠ unit 'u') (h : unescapeLetter letter = some c)
    (s : JsString) : parseUnits (unit '\\' :: letter :: s) = (parseUnits s).map fun p => (c :: p.1, p.2) := by
  have hquote : unit '\\' ≠ unit '"' := by decide
  have hcontrol : ¬ unit '\\' < 32 := by decide
  rw [parseUnits.eq_def]
  simp only [if_neg hquote, if_neg hcontrol, ne_eq, not_true_eq_false, if_false, hu, not_false_eq_true, if_true,
    h, Option.bind_some]

theorem parseUnits_numeric (c : UInt16) (s : JsString) :
    parseUnits (unit '\\' :: unit 'u' :: (fourDigits c ++ s)) = (parseUnits s).map fun p => (c :: p.1, p.2) := by
  have hquote : unit '\\' ≠ unit '"' := by decide
  have hcontrol : ¬ unit '\\' < 32 := by decide
  have hvalue := parseDigits_fourDigits c
  rw [fourDigits] at hvalue
  rw [parseUnits.eq_def]
  simp only [if_neg hquote, if_neg hcontrol, ne_eq, not_true_eq_false, if_false, fourDigits, List.cons_append,
    List.nil_append, hvalue, Option.bind_some, UInt16.ofNat_toNat]

/-- **One unit** is read back from its escape. -/
theorem parseUnits_escapeUnit (c : UInt16) (s : JsString) :
    parseUnits (escapeUnit c ++ s) = (parseUnits s).map fun p => (c :: p.1, p.2) := by
  rw [escapeUnit]
  cases hletter : escapeLetter c with
  | some letter =>
    obtain ⟨hu, hback⟩ := unescapeLetter_escapeLetter hletter
    exact parseUnits_escape hu hback s
  | none =>
    by_cases hnumeric : c < 32 ∨ isLeadingSurrogate c ∨ isTrailingSurrogate c
    · simp only [if_pos hnumeric]
      exact parseUnits_numeric c s
    · simp only [if_neg hnumeric]
      obtain ⟨hquote, hslash⟩ := escapeLetter_eq_none hletter
      exact parseUnits_plain hquote hslash (fun hlt => hnumeric (Or.inl hlt)) s

theorem parseUnits_surrogate {c : UInt16} (h : 0xd800 ≤ c) (s : JsString) :
    parseUnits (c :: s) = (parseUnits s).map fun p => (c :: p.1, p.2) := by
  rw [UInt16.le_iff_toNat_le] at h
  have hle : 55296 ≤ c.toNat := h
  refine parseUnits_plain ?_ ?_ ?_ s
  · rintro rfl
    exact absurd hle (by decide)
  · rintro rfl
    exact absurd hle (by decide)
  · intro hlt
    rw [UInt16.lt_iff_toNat_lt] at hlt
    have hsmall : c.toNat < 32 := hlt
    omega

theorem parseUnits_quoteUnits (s rest : JsString) :
    parseUnits (quoteUnits s ++ unit '"' :: rest) = some (s, rest) := by
  induction s using quoteUnits.induct with
  | case1 =>
    rw [quoteUnits, List.nil_append, parseUnits.eq_def]
    rfl
  | case2 c =>
    rw [quoteUnits, parseUnits_escapeUnit, parseUnits.eq_def]
    rfl
  | case3 c d s hpair ih =>
    have hlow : 0xd800 ≤ c ∧ 0xd800 ≤ d := by
      obtain ⟨hc, hd⟩ := hpair
      simp only [isLeadingSurrogate, isTrailingSurrogate, Bool.and_eq_true, decide_eq_true_eq] at hc hd
      exact ⟨hc.1, UInt16.le_trans (by decide) hd.1⟩
    rw [quoteUnits, if_pos hpair, List.cons_append, List.cons_append, parseUnits_surrogate hlow.1,
      parseUnits_surrogate hlow.2, ih]
    rfl
  | case4 c d s hpair ih =>
    rw [quoteUnits, if_neg hpair, List.append_assoc, parseUnits_escapeUnit, ih]
    rfl

/-! ### White space and numbers -/

/-- Nothing but white space. -/
def Blank (s : JsString) : Prop := ∀ c ∈ s, isJsonSpace c = true

instance (s : JsString) : Decidable (Blank s) := decidable_of_iff (s.all isJsonSpace = true) List.all_eq_true

theorem skipSpace_append {s : JsString} (h : Blank s) (t : JsString) : skipSpace (s ++ t) = skipSpace t :=
  List.dropWhile_append_of_pos h

theorem skipSpace_cons {c : UInt16} (h : isJsonSpace c = false) (s : JsString) : skipSpace (c :: s) = c :: s :=
  List.dropWhile_cons_of_neg (by simp [h])

theorem blank_lineBreak (gap : JsString) {indent : JsString} (h : Blank indent) : Blank (lineBreak gap indent) := by
  unfold lineBreak
  split_ifs
  · intro c hc
    exact absurd hc List.not_mem_nil
  · intro c hc
    rcases List.mem_cons.1 hc with rfl | hc
    · rfl
    · exact h c hc

/-- What follows does not belong to a number. -/
def NumberEnds (rest : JsString) : Prop :=
  ∀ c ∈ rest.head?, isDigit c = false ∧ c ≠ unit '.' ∧ c ≠ unit 'e' ∧ c ≠ unit 'E'

instance (rest : JsString) : Decidable (NumberEnds rest) :=
  match rest with
  | [] => isTrue (by simp [NumberEnds])
  | c :: _ =>
    decidable_of_iff (isDigit c = false ∧ c ≠ unit '.' ∧ c ≠ unit 'e' ∧ c ≠ unit 'E') (by simp [NumberEnds])

theorem numberEnds_lineBreak (gap indent : JsString) {c : UInt16} (h : NumberEnds [c]) (rest : JsString) :
    NumberEnds (lineBreak gap indent ++ c :: rest) := by
  unfold lineBreak
  split_ifs
  · exact h
  · intro d hd
    obtain rfl := Option.mem_some.1 hd
    decide

theorem parseDigitRun_append {s rest : JsString} (hne : s ≠ []) (h : DigitString s) (hrest : NumberEnds rest) :
    parseDigitRun (s ++ rest) = some (s, rest) := by
  have hhead : rest.takeWhile isDigit = [] ∧ rest.dropWhile isDigit = rest := by
    cases rest with
    | nil => exact ⟨rfl, rfl⟩
    | cons c rest =>
      have hc := (hrest c rfl).1
      exact ⟨List.takeWhile_cons_of_neg (by simp [hc]), List.dropWhile_cons_of_neg (by simp [hc])⟩
  have htake : (s ++ rest).takeWhile isDigit = s := by
    rw [List.takeWhile_append_of_pos h, hhead.1, List.append_nil]
  have hdrop : (s ++ rest).dropWhile isDigit = rest := by
    rw [List.dropWhile_append_of_pos h, hhead.2]
  rw [parseDigitRun, htake, hdrop, if_neg hne]

theorem parseWhole_toRadix (n : Nat) {rest : JsString} (hrest : NumberEnds rest) :
    parseWhole (toRadix 10 n ++ rest) = some (toRadix 10 n, rest) := by
  rcases noLeadingZero_toRadix n with hzero | hhead
  · rw [hzero]
    rfl
  · obtain ⟨c, s, hcons⟩ := List.exists_cons_of_ne_nil (toRadix_ne_nil 10 n)
    have hc : c ≠ unit '0' := by
      rintro rfl
      rw [hcons] at hhead
      exact hhead rfl
    have hrun := parseDigitRun_append (toRadix_ne_nil 10 n) (digitString_toRadix n) hrest
    rw [hcons, List.cons_append] at hrun ⊢
    rw [parseWhole, if_neg hc, hrun]

theorem parseFraction_ends {rest : JsString} (hrest : NumberEnds rest) : parseFraction rest = some ([], rest) := by
  cases rest with
  | nil => rfl
  | cons c rest => rw [parseFraction, if_neg (hrest c rfl).2.1]

theorem parseExponentPart_ends {rest : JsString} (hrest : NumberEnds rest) :
    parseExponentPart rest = some ([], rest) := by
  cases rest with
  | nil => rfl
  | cons c rest =>
    have hc := (hrest c rfl).2.2
    rw [parseExponentPart.eq_def]
    exact if_neg (not_or.2 hc)

theorem parseNumber_toRadix {n : Nat} (h : n ≤ 2 ^ 53 - 1) {rest : JsString} (hrest : NumberEnds rest) :
    parseNumber (toRadix 10 n ++ rest) = some (.ofNat n, rest) := by
  have hmagnitude : parseMagnitude (toRadix 10 n ++ rest) = some (toRadix 10 n, rest) := by
    rw [parseMagnitude, parseWhole_toRadix n hrest]
    simp [parseFraction_ends hrest, parseExponentPart_ends hrest]
  obtain ⟨c, s, hcons⟩ := List.exists_cons_of_ne_nil (toRadix_ne_nil 10 n)
  have hdigit : isDigit c = true := digitString_toRadix n c (by simp [hcons])
  have hminus : c ≠ unit '-' := ne_of_isDigit hdigit (by decide)
  have hvalue := stringToNumber_numeral h
  rw [hcons] at hmagnitude hvalue ⊢
  rw [List.cons_append] at hmagnitude ⊢
  rw [parseNumber, if_neg hminus, hmagnitude, Option.map_some, hvalue]

/-! ### Values -/

/-- Every number is a natural number that a double can count. -/
inductive Json.Plain : Json → Prop
  | null : Json.Plain .null
  | bool (value : Bool) : Json.Plain (.bool value)
  | number {n : Nat} (h : n ≤ 2 ^ 53 - 1) : Json.Plain (.number (.ofNat n))
  | string (value : JsString) : Json.Plain (.string value)
  | array {items : List Json} (h : ∀ item ∈ items, Json.Plain item) : Json.Plain (.array items)
  | object {members : List (JsString × Json)} (h : ∀ member ∈ members, Json.Plain member.2) :
      Json.Plain (.object members)

/-- The value is read back from its text, at any indentation, after any white space, before anything that
does not prolong a number. -/
def ReadsBack (gap : JsString) (value : Json) : Prop :=
  ∀ (indent blank rest : JsString) (fuel : Nat), Blank indent → Blank blank → NumberEnds rest →
    (value.print gap indent).length ≤ fuel →
    parseValue fuel (blank ++ (value.print gap indent ++ rest)) = some (value, rest)

section

variable {gap : JsString}

/-- **The items** up to the closing bracket. -/
theorem parseItems_print {item : Json} {items : List Json} (hitems : ∀ i ∈ item :: items, ReadsBack gap i)
    {indent outer : JsString} (hindent : Blank indent) (houter : Blank outer) (rest : JsString) {fuel : Nat}
    (hfuel : (item.print gap indent ++ Json.printItems gap indent items).length < fuel) :
    parseItems fuel (lineBreak gap indent ++ (item.print gap indent ++ (Json.printItems gap indent items ++
      (lineBreak gap outer ++ unit ']' :: rest)))) = some (item :: items, rest) := by
  have hblank := blank_lineBreak gap hindent
  induction items generalizing item fuel with
  | nil =>
    obtain ⟨fuel, rfl⟩ : ∃ n, fuel = n + 1 := ⟨fuel - 1, by omega⟩
    rw [Json.printItems, List.append_nil] at hfuel
    have hitem := hitems item (by simp) indent _ _ fuel hindent hblank
      (numberEnds_lineBreak gap outer (show NumberEnds [unit ']'] by decide) rest) (by omega)
    rw [parseItems, Json.printItems, List.nil_append, hitem, Option.bind_some,
      skipSpace_append (blank_lineBreak gap houter), skipSpace_cons (by decide)]
    rfl
  | cons next items ih =>
    obtain ⟨fuel, rfl⟩ : ∃ n, fuel = n + 1 := ⟨fuel - 1, by omega⟩
    simp only [Json.printItems, List.length_append, List.length_cons] at hfuel
    have hends : NumberEnds (Json.printItems gap indent (next :: items) ++
        (lineBreak gap outer ++ unit ']' :: rest)) := by
      intro c hc
      obtain rfl := Option.mem_some.1 hc
      decide
    have hitem := hitems item (by simp) indent _ _ fuel hindent hblank hends (by omega)
    have hnext : ∀ i ∈ next :: items, ReadsBack gap i := fun i hi =>
      hitems i (List.mem_cons_of_mem _ hi)
    have hless : (next.print gap indent ++ Json.printItems gap indent items).length < fuel := by
      rw [List.length_append]
      omega
    have hrest := ih hnext hless
    rw [parseItems, hitem, Option.bind_some, Json.printItems, List.cons_append, skipSpace_cons (by decide)]
    simp only [if_true, List.append_assoc, hrest, Option.map_some]

/-- A key with its colon. -/
theorem parseKey_print (gap key rest : JsString) :
    parseUnits (quoteUnits key ++ unit '"' :: (colon gap ++ rest)) = some (key, colon gap ++ rest) ∧
      ∃ blank, Blank blank ∧ skipSpace (colon gap ++ rest) = unit ':' :: (blank ++ rest) := by
  refine ⟨parseUnits_quoteUnits key _, ?_⟩
  unfold colon
  split_ifs
  · exact ⟨[], fun c hc => absurd hc List.not_mem_nil, skipSpace_cons (by decide) _⟩
  · refine ⟨[32], fun c hc => ?_, skipSpace_cons (by decide) _⟩
    obtain rfl := List.mem_singleton.1 hc
    rfl

/-- **The members** up to the closing brace. -/
theorem parseMembers_print {key : JsString} {value : Json} {members : List (JsString × Json)}
    (hmembers : ∀ m ∈ (key, value) :: members, ReadsBack gap m.2)
    {indent outer : JsString} (hindent : Blank indent) (houter : Blank outer) (rest : JsString) {fuel : Nat}
    (hfuel : (value.print gap indent ++ Json.printMembers gap indent members).length < fuel) :
    parseMembers fuel (lineBreak gap indent ++ (quoteString key ++ (colon gap ++ (value.print gap indent ++
      (Json.printMembers gap indent members ++ (lineBreak gap outer ++ unit '\x7d' :: rest)))))) =
        some ((key, value) :: members, rest) := by
  have hblank := blank_lineBreak gap hindent
  induction members generalizing key value fuel with
  | nil =>
    obtain ⟨fuel, rfl⟩ : ∃ n, fuel = n + 1 := ⟨fuel - 1, by omega⟩
    rw [Json.printMembers, List.append_nil] at hfuel
    obtain ⟨hkey, blank, hspace, hcolon⟩ := parseKey_print gap key
      (value.print gap indent ++ (lineBreak gap outer ++ unit '\x7d' :: rest))
    have hread : ReadsBack gap value := hmembers (key, value) (by simp)
    have hvalue := hread indent _ _ fuel hindent hspace
      (numberEnds_lineBreak gap outer (show NumberEnds [unit '\x7d'] by decide) rest) (by omega)
    rw [parseMembers, skipSpace_append hblank, quoteString, List.cons_append, skipSpace_cons (by decide)]
    simp only [ne_eq, not_true_eq_false, if_false, Json.printMembers, List.nil_append, List.append_assoc,
      List.cons_append, hkey, Option.bind_some, hcolon, hvalue,
      skipSpace_append (blank_lineBreak gap houter), skipSpace_cons (show isJsonSpace (unit '\x7d') = false by decide)]
    rfl
  | cons next members ih =>
    obtain ⟨fuel, rfl⟩ : ∃ n, fuel = n + 1 := ⟨fuel - 1, by omega⟩
    simp only [Json.printMembers, List.length_append, List.length_cons] at hfuel
    have hends : NumberEnds (Json.printMembers gap indent (next :: members) ++
        (lineBreak gap outer ++ unit '\x7d' :: rest)) := by
      intro c hc
      obtain rfl := Option.mem_some.1 hc
      decide
    obtain ⟨hkey, blank, hspace, hcolon⟩ := parseKey_print gap key
      (value.print gap indent ++ (Json.printMembers gap indent (next :: members) ++
        (lineBreak gap outer ++ unit '\x7d' :: rest)))
    have hread : ReadsBack gap value := hmembers (key, value) (by simp)
    have hvalue := hread indent _ _ fuel hindent hspace hends (by omega)
    have hnext : ∀ m ∈ (next.1, next.2) :: members, ReadsBack gap m.2 := fun m hm =>
      hmembers m (List.mem_cons_of_mem _ hm)
    have hless : (next.2.print gap indent ++ Json.printMembers gap indent members).length < fuel := by
      rw [List.length_append]
      omega
    have hrest := ih hnext hless
    rw [parseMembers, skipSpace_append hblank, quoteString, List.cons_append, skipSpace_cons (by decide)]
    simp only [ne_eq, not_true_eq_false, if_false, List.append_assoc, List.cons_append, List.nil_append, hkey,
      Option.bind_some, hcolon, hvalue]
    simp only [Json.printMembers, List.cons_append, skipSpace_cons (show isJsonSpace (unit ',') = false by decide),
      if_true, List.append_assoc, hrest, Option.map_some]

theorem parseValue_blank {blank : JsString} (h : Blank blank) (fuel : Nat) (s : JsString) :
    parseValue fuel (blank ++ s) = parseValue fuel s := by
  cases fuel with
  | zero => rw [parseValue, parseValue]
  | succ fuel => rw [parseValue, parseValue, skipSpace_append h]

/-- It is enough to read a text that is not empty with some fuel. -/
theorem ReadsBack.of_succ {value : Json}
    (h : ∀ (indent rest : JsString) (fuel : Nat), Blank indent → NumberEnds rest →
      (value.print gap indent).length ≤ fuel + 1 →
      value.print gap indent ≠ [] ∧ parseValue (fuel + 1) (value.print gap indent ++ rest) = some (value, rest)) :
    ReadsBack gap value := by
  intro indent blank rest fuel hindent hblank hrest hfuel
  rw [parseValue_blank hblank]
  cases fuel with
  | zero =>
    have hne := (h indent rest 0 hindent hrest (by omega)).1
    exact absurd (List.eq_nil_of_length_eq_zero (by omega)) hne
  | succ fuel => exact (h indent rest fuel hindent hrest hfuel).2

theorem parseValue_string (fuel : Nat) (value rest : JsString) :
    parseValue (fuel + 1) (quoteString value ++ rest) = some (.string value, rest) := by
  rw [parseValue, quoteString, List.cons_append, skipSpace_cons (by decide)]
  simp only [if_true, List.append_assoc, List.cons_append, List.nil_append, parseUnits_quoteUnits, Option.map_some]

theorem parseValue_number {n : Nat} (h : n ≤ 2 ^ 53 - 1) (fuel : Nat) {rest : JsString} (hrest : NumberEnds rest) :
    parseValue (fuel + 1) (toRadix 10 n ++ rest) = some (.number (.ofNat n), rest) := by
  have hnumber := parseNumber_toRadix h hrest
  obtain ⟨c, s, hcons⟩ := List.exists_cons_of_ne_nil (toRadix_ne_nil 10 n)
  have hdigit : isDigit c = true := digitString_toRadix n c (by simp [hcons])
  have hspace : isJsonSpace c = false := by
    rw [isDigit_iff] at hdigit
    simp only [isJsonSpace, Bool.or_eq_false_iff, beq_eq_false_iff_ne, ne_eq, ← UInt16.toNat_inj]
    simp
    omega
  have hne : ∀ e : UInt16, isDigit e = false → c ≠ e := fun e he => ne_of_isDigit hdigit he
  rw [hcons, List.cons_append] at hnumber ⊢
  rw [parseValue, skipSpace_cons hspace]
  simp only [hne (unit '"') (by decide), hne (unit '[') (by decide), hne (unit '\x7b') (by decide),
    hne (unit 'n') (by decide), hne (unit 't') (by decide), hne (unit 'f') (by decide), if_false, hnumber,
    Option.map_some]

/-- Items do not start with the closing bracket. -/
theorem head_ne_of_parseItems {fuel : Nat} {s : JsString} {p : List Json × JsString}
    (h : parseItems fuel s = some p) : (skipSpace s).head? ≠ some (unit ']') := by
  intro hhead
  obtain ⟨t, ht⟩ := List.head?_eq_some_iff.1 hhead
  have hnumber : parseNumber (unit ']' :: t) = none := rfl
  have hvalue : ∀ fuel, parseValue fuel s = none := by
    intro fuel
    cases fuel with
    | zero => rw [parseValue]
    | succ fuel =>
      rw [parseValue, ht]
      simp only [show unit ']' ≠ unit '"' by decide, show unit ']' ≠ unit '[' by decide,
        show unit ']' ≠ unit '\x7b' by decide, show unit ']' ≠ unit 'n' by decide,
        show unit ']' ≠ unit 't' by decide, show unit ']' ≠ unit 'f' by decide, if_false, hnumber, Option.map_none]
  cases fuel with
  | zero => simp [parseItems] at h
  | succ fuel => simp [parseItems, hvalue fuel] at h

/-- Members start with a quote. -/
theorem head_ne_of_parseMembers {fuel : Nat} {s : JsString} {p : List (JsString × Json) × JsString}
    (h : parseMembers fuel s = some p) : (skipSpace s).head? ≠ some (unit '\x7d') := by
  intro hhead
  obtain ⟨t, ht⟩ := List.head?_eq_some_iff.1 hhead
  cases fuel with
  | zero => simp [parseMembers] at h
  | succ fuel =>
    rw [parseMembers, ht] at h
    simp [show unit '\x7d' ≠ unit '"' by decide] at h

/-- **A plain value is read back**, with white space for the indentation. -/
theorem Json.Plain.readsBack {value : Json} (h : value.Plain) (hgap : Blank gap) : ReadsBack gap value := by
  induction h with
  | null => exact .of_succ fun indent rest fuel _ _ _ => ⟨by simp [Json.print, lit], rfl⟩
  | bool value =>
    refine .of_succ fun indent rest fuel _ _ _ => ?_
    cases value with
    | false => exact ⟨by simp [Json.print, lit], rfl⟩
    | true => exact ⟨by simp [Json.print, lit], rfl⟩
  | @number n hle =>
    refine .of_succ fun indent rest fuel _ hrest _ => ?_
    have hprint : (Json.number (.ofNat n)).print gap indent = toRadix 10 n := by
      rw [← numberToString_ofNat hle]
      rfl
    rw [hprint]
    exact ⟨toRadix_ne_nil 10 n, parseValue_number hle fuel hrest⟩
  | string value =>
    refine .of_succ fun indent rest fuel _ _ _ => ?_
    rw [Json.print]
    exact ⟨by simp [quoteString], parseValue_string fuel value rest⟩
  | @array items hitems ih =>
    refine .of_succ fun indent rest fuel hindent _ hfuel => ?_
    cases items with
    | nil => exact ⟨by simp [Json.print, lit], rfl⟩
    | cons item items =>
      refine ⟨by simp [Json.print], ?_⟩
      have hinner : Blank (indent ++ gap) := fun c hc =>
        (List.mem_append.1 hc).elim (hindent c) (hgap c)
      simp only [Json.print, List.length_cons, List.length_append, List.length_nil] at hfuel
      have hless : (item.print gap (indent ++ gap) ++ Json.printItems gap (indent ++ gap) items).length < fuel := by
        rw [List.length_append]
        omega
      have hparse := parseItems_print ih hinner hindent rest hless
      have hhead := head_ne_of_parseItems hparse
      rw [parseValue, Json.print, List.cons_append, skipSpace_cons (by decide)]
      simp only [show unit '[' ≠ unit '"' by decide, if_false, if_true, List.append_assoc, List.cons_append,
        List.nil_append, hhead, hparse, Option.map_some]
  | @object members hmembers ih =>
    refine .of_succ fun indent rest fuel hindent _ hfuel => ?_
    rcases members with _ | ⟨⟨key, value⟩, members⟩
    · exact ⟨by simp [Json.print, lit], rfl⟩
    · refine ⟨by simp [Json.print], ?_⟩
      have hinner : Blank (indent ++ gap) := fun c hc =>
        (List.mem_append.1 hc).elim (hindent c) (hgap c)
      simp only [Json.print, List.length_cons, List.length_append, List.length_nil] at hfuel
      have hless : (value.print gap (indent ++ gap) ++ Json.printMembers gap (indent ++ gap) members).length <
          fuel := by
        rw [List.length_append]
        omega
      have hparse := parseMembers_print ih hinner hindent rest hless
      have hhead := head_ne_of_parseMembers hparse
      rw [parseValue, Json.print, List.cons_append, skipSpace_cons (by decide)]
      simp only [show unit '\x7b' ≠ unit '"' by decide, show unit '\x7b' ≠ unit '[' by decide, if_false, if_true,
        List.append_assoc, List.cons_append, List.nil_append, hhead, hparse, Option.map_some]

/-- **Reading undoes printing**, also with white space around the text. -/
theorem Json.parse_stringify {value : Json} (h : value.Plain) (hgap : Blank gap) {after : JsString}
    (hafter : Blank after) : Json.parse (value.stringify gap ++ after) = some value := by
  have hends : NumberEnds after := by
    intro c hc
    have hblank := hafter c (List.mem_of_mem_head? hc)
    simp only [isJsonSpace, Bool.or_eq_true, beq_iff_eq] at hblank
    rcases hblank with ((rfl | rfl) | rfl) | rfl <;> decide
  have hnil : Blank [] := fun c hc => absurd hc List.not_mem_nil
  have hvalue := h.readsBack hgap [] [] after ((value.print gap [] ++ after).length + 1) hnil hnil hends
    (by rw [List.length_append]; omega)
  rw [List.nil_append] at hvalue
  have hspace : skipSpace after = [] := List.dropWhile_eq_nil_iff.2 hafter
  rw [Json.parse, Json.stringify, hvalue, Option.bind_some, if_pos hspace]

end

end CkbDilithium.Js
