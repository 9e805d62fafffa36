import Breaker.Toml.Document
import Mathlib.Data.List.Forall2

/-!
# What is written is read

A document may write one text in many ways.  Here are the ways to write a text
between double quotes, a number in decimal digits and a key without quotes, and
for each of them that the reader gives back what was written and stops behind
it.

* `Spells` lists the ways to write a character: itself, a letter after a
  backslash, or its code point.  `basic_of_spelled` reads any mixture of them.
* `value_decimal` reads the digits of a number; the work is in the readers that
  are asked before it, which must not take the digits for a date or a time.
* `key_bare` reads a key.
-/

namespace Breaker.Toml

variable {c : Char} {w rest : List Char}

/-! ## Characters between double quotes -/

/-- The characters with a short escape, each with the letter after the
backslash. -/
def shortEscapes : List (Char × Char) :=
  [('\x08', 'b'), ('\t', 't'), ('\n', 'n'), ('\x0c', 'f'), ('\r', 'r'), ('"', '"'), ('\\', '\\')]

/-- The character is this hexadecimal digit, be it a small or a capital letter. -/
def HexDigit (c : Char) (d : Nat) : Prop :=
  d < 16 ∧ (c = d.digitChar ∨ c = d.digitChar.toUpper)

/-- The characters are hexadecimal digits of this number. -/
def WritesHex (ds : List Char) (n : Nat) : Prop :=
  ∃ values, List.Forall₂ HexDigit ds values ∧ values.foldl (fun n d => 16 * n + d) 0 = n

/-- The ways to write a character between double quotes. -/
inductive Spells (c : Char) : List Char → Prop
  /-- The character itself, unless it is a control character, a double quote or a
  backslash. -/
  | plain (hshown : c = '\t' ∨ (0x20 ≤ c.toNat ∧ c.toNat ≠ 0x7F)) (hquote : c ≠ '"')
      (hbackslash : c ≠ '\\') : Spells c [c]
  | short {letter : Char} (h : (c, letter) ∈ shortEscapes) : Spells c ['\\', letter]
  | code {ds : List Char} (hlength : ds.length = 4) (h : WritesHex ds c.toNat) :
      Spells c ('\\' :: 'u' :: ds)
  | longCode {ds : List Char} (hlength : ds.length = 8) (h : WritesHex ds c.toNat) :
      Spells c ('\\' :: 'U' :: ds)

/-- The second text writes the first, character by character. -/
inductive Spelled : List Char → List Char → Prop
  | nil : Spelled [] []
  | cons {c : Char} {w s ws : List Char} (h : Spells c w) (hs : Spelled s ws) :
      Spelled (c :: s) (w ++ ws)

/-! ### One way to write them -/

/-- Four hexadecimal digits. -/
def hexDigits (n : Nat) : List Char :=
  [n / 0x1000 % 16, n / 0x100 % 16, n / 0x10 % 16, n % 16].map Nat.digitChar

/-- A character between double quotes, with an escape where it needs one. -/
def spellChar (c : Char) : List Char :=
  if c = '"' ∨ c = '\\' then ['\\', c]
  else if c ≠ '\t' ∧ (c.toNat < 0x20 ∨ c.toNat = 0x7F) then '\\' :: 'u' :: hexDigits c.toNat
  else [c]

theorem writesHex_hexDigits {n : Nat} (hn : n < 0x10000) : WritesHex (hexDigits n) n := by
  refine ⟨[n / 0x1000 % 16, n / 0x100 % 16, n / 0x10 % 16, n % 16], ?_, ?_⟩
  · rw [hexDigits, List.forall₂_map_left_iff, List.forall₂_same]
    simp only [List.forall_mem_cons]
    exact ⟨⟨by omega, .inl rfl⟩, ⟨by omega, .inl rfl⟩, ⟨by omega, .inl rfl⟩,
      ⟨by omega, .inl rfl⟩, nofun⟩
  · simp only [List.foldl_cons, List.foldl_nil]
    omega

theorem spells_spellChar (c : Char) : Spells c (spellChar c) := by
  rw [spellChar]
  split_ifs with hescape hcontrol
  · rcases hescape with rfl | rfl <;> exact .short (by decide)
  · exact .code rfl (writesHex_hexDigits (by omega))
  · rw [not_or] at hescape
    refine .plain ?_ hescape.1 hescape.2
    by_cases htab : c = '\t'
    · exact .inl htab
    · right
      by_contra hcode
      exact hcontrol ⟨htab, by omega⟩

theorem spelled_flatMap (s : List Char) : Spelled s (s.flatMap spellChar) := by
  induction s with
  | nil => exact .nil
  | cons c s ih =>
    rw [List.flatMap_cons]
    exact .cons (spells_spellChar c) ih

/-! ### Reading them -/

theorem hexDigit?_eq {d : Nat} (h : HexDigit c d) : hexDigit? c = some d := by
  have hboth : ∀ d < 16,
      hexDigit? d.digitChar = some d ∧ hexDigit? d.digitChar.toUpper = some d := by decide
  obtain ⟨hd, rfl | rfl⟩ := h
  · exact (hboth d hd).1
  · exact (hboth d hd).2

theorem hexValue?_eq {ds : List Char} {values : List Nat}
    (h : List.Forall₂ HexDigit ds values) (n : Nat) :
    hexValue? n ds = some (values.foldl (fun n d => 16 * n + d) n) := by
  induction h generalizing n with
  | nil => rfl
  | cons hd _ ih => rw [hexValue?, hexDigit?_eq hd, Option.bind_some, ih, List.foldl_cons]

/-- A character has a code point, which makes it. -/
theorem scalar?_toNat (c : Char) : scalar? c.toNat = some c := by
  have hvalid : c.toNat.isValidChar := c.valid
  rw [scalar?, if_pos hvalid, Char.ofNat_toNat]

theorem codePoint_eq {ds : List Char} {width : Nat} (hlength : ds.length = width)
    (h : WritesHex ds c.toNat) : codePoint width (ds ++ rest) = some (c, rest) := by
  obtain ⟨values, hvalues, hcode⟩ := h
  subst hlength
  have hlong : ¬ (ds ++ rest).length < ds.length := by
    rw [List.length_append]
    omega
  rw [codePoint, if_neg hlong, List.take_left, List.drop_left, hexValue?_eq hvalues, hcode,
    Option.bind_some, scalar?_toNat, Option.map_some]

theorem escape_short {letter : Char} (h : (c, letter) ∈ shortEscapes) :
    escape (letter :: rest) = some (c, rest) := by
  simp only [shortEscapes, List.mem_cons, Prod.mk.injEq, List.not_mem_nil, or_false] at h
  rcases h with ⟨rfl, rfl⟩ | ⟨rfl, rfl⟩ | ⟨rfl, rfl⟩ | ⟨rfl, rfl⟩ | ⟨rfl, rfl⟩ | ⟨rfl, rfl⟩ |
    ⟨rfl, rfl⟩ <;> rfl

theorem Spells.length_pos (h : Spells c w) : 0 < w.length := by
  cases h <;> simp

theorem basic_backslash {fuel : Nat} (h : escape w = some (c, rest)) :
    basic (fuel + 1) ('\\' :: w) = (basic fuel rest).map fun (s, rest) => (c :: s, rest) := by
  rw [basic, h, Option.bind_some]

/-- One character is read, however it is written. -/
theorem basic_spells (h : Spells c w) (fuel : Nat) :
    basic (fuel + 1) (w ++ rest) = (basic fuel rest).map fun (s, rest) => (c :: s, rest) := by
  cases h with
  | plain hshown hquote hbackslash =>
    have htext : isTextChar c = true := by simpa [isTextChar, isCommentChar] using hshown
    simp [basic, htext]
  | short h => exact basic_backslash (escape_short h)
  | code hlength h => exact basic_backslash (codePoint_eq hlength h)
  | longCode hlength h => exact basic_backslash (codePoint_eq hlength h)

/-- A text between double quotes is read up to the closing one. -/
theorem basic_of_spelled {s : List Char} (h : Spelled s w) {fuel : Nat} (hfuel : w.length < fuel) :
    basic fuel (w ++ '"' :: rest) = some (s, rest) := by
  induction h generalizing fuel with
  | nil =>
    obtain ⟨fuel, rfl⟩ : ∃ k, fuel = k + 1 := ⟨fuel - 1, by omega⟩
    rfl
  | cons hc _ ih =>
    obtain ⟨fuel, rfl⟩ : ∃ k, fuel = k + 1 := ⟨fuel - 1, by omega⟩
    have hpos := hc.length_pos
    rw [List.length_append] at hfuel
    rw [List.append_assoc, basic_spells hc, ih (by omega), Option.map_some]

theorem Spells.head?_ne_quote (h : Spells c w) : w.head? ≠ some '"' := by
  cases h with
  | plain _ hquote _ => simpa using hquote
  | short _ => simp
  | code _ _ => simp
  | longCode _ _ => simp

theorem Spelled.head?_ne_quote {s : List Char} (h : Spelled s w) : w.head? ≠ some '"' := by
  cases h with
  | nil => simp
  | cons h _ =>
    rw [List.head?_append_of_ne_nil _ (List.ne_nil_of_length_pos h.length_pos)]
    exact h.head?_ne_quote

/-- A text on the rest of a line is not the start of one over several lines. -/
theorem quotedText_of_spelled {s : List Char} (h : Spelled s w) :
    quotedText ('"' :: (w ++ '"' :: '\n' :: rest)) = some (s, '\n' :: rest) := by
  have hline : quotedLine ('"' :: (w ++ '"' :: '\n' :: rest)) = some (s, '\n' :: rest) := by
    rw [quotedLine]
    refine basic_of_spelled h ?_
    rw [List.length_append]
    omega
  rw [← hline]
  cases w with
  | nil => rfl
  | cons c w =>
    have hquote : c ≠ '"' := by simpa using h.head?_ne_quote
    rw [List.cons_append, quotedText]
    · intro rest heq
      simp [hquote] at heq
    · intro rest heq
      simp at heq

theorem value_quoted {s : List Char} (h : Spelled s w) (depth : Nat) :
    value depth ('"' :: (w ++ '"' :: '\n' :: rest)) =
      some (.text (String.ofList s), '\n' :: rest) := by
  have hscalar : scalar ('"' :: (w ++ '"' :: '\n' :: rest)) =
      some (.text (String.ofList s), '\n' :: rest) := by
    rw [scalar, quotedText_of_spelled h, Option.map_some]
  cases depth with
  | zero => exact hscalar
  | succ depth => exact hscalar

/-! ## Numbers in decimal digits -/

/-- A character of some class is none of those outside. -/
theorem ne_of_class {p : Char → Bool} {other : Char} (hc : p c = true) (hother : p other = false) :
    c ≠ other := by
  rintro rfl
  rw [hc] at hother
  cases hother

theorem isDigit_of_mem_toDigits {n : Nat} (hc : c ∈ Nat.toDigits 10 n) : isDigit c = true := by
  have h := Nat.isDigit_of_mem_toDigits (by decide) (by decide) hc
  simpa [isDigit, Char.isDigit, Char.le_def] using h

/-- A number starts with a digit. -/
theorem exists_toDigits_eq (n : Nat) :
    ∃ d ds, Nat.toDigits 10 n = d :: ds ∧ isDigit d = true := by
  obtain ⟨d, ds, hdigits⟩ := List.exists_cons_of_ne_nil (Nat.toDigits_ne_nil (n := n) (b := 10))
  exact ⟨d, ds, hdigits, isDigit_of_mem_toDigits (hdigits ▸ List.mem_cons_self)⟩

theorem digitValue_of_isDigit (hc : isDigit c = true) : digitValue c = c.toNat - '0'.toNat := by
  rw [digitValue, if_pos hc]

theorem digitsValue_toDigits (n : Nat) : digitsValue 10 (Nat.toDigits 10 n) = n := by
  have hvalue : digitsValue 10 (Nat.toDigits 10 n) = Nat.ofDigitChars 10 (Nat.toDigits 10 n) 0 :=
    List.foldl_ext _ _ _ fun m c hc => by
      rw [digitValue_of_isDigit (isDigit_of_mem_toDigits hc)]
  rw [hvalue, Nat.ofDigitChars_toDigits (by decide) (by decide)]

/-- A number has no zero in front. -/
theorem head_toDigits_ne_zero {n : Nat} (hn : 0 < n) : (Nat.toDigits 10 n).head? ≠ some '0' := by
  induction n using Nat.strongRecOn with
  | _ n ih =>
    by_cases hsmall : n < 10
    · have hdigit : ∀ d < 10, 0 < d → d.digitChar ≠ '0' := by decide
      rw [Nat.toDigits_of_lt_base hsmall, List.head?_cons, ne_eq, Option.some.injEq]
      exact hdigit n hsmall hn
    · rw [Nat.toDigits_of_base_le (by decide) (by omega),
        List.head?_append_of_ne_nil _ Nat.toDigits_ne_nil]
      exact ih (n / 10) (by omega) (by omega)

/-- Digits are read up to the end of the line. -/
theorem digitRun_digits {ds : List Char} (hds : ∀ c ∈ ds, isDigit c = true) (hne : ds ≠ []) :
    digitRun isDigit (ds ++ '\n' :: rest) = some (ds, '\n' :: rest) := by
  induction ds with
  | nil => exact absurd rfl hne
  | cons d ds ih =>
    obtain ⟨hd, hds⟩ := List.forall_mem_cons.1 hds
    cases ds with
    | nil =>
      simp only [List.singleton_append, digitRun, hd, if_true]
      rfl
    | cons e ds =>
      have he : isDigit e = true := hds e List.mem_cons_self
      have hunderscore : e ≠ '_' := ne_of_class he rfl
      have hrest := ih hds (List.cons_ne_nil e ds)
      rw [List.cons_append] at hrest
      rw [List.cons_append, List.cons_append, digitRun]
      simp only [hd, he, hunderscore, hrest, if_true, if_false, Option.map_some]

theorem wholePart_toDigits (n : Nat) :
    wholePart (Nat.toDigits 10 n ++ '\n' :: rest) = some (Nat.toDigits 10 n, '\n' :: rest) := by
  rcases Nat.eq_zero_or_pos n with rfl | hn
  · rfl
  · have hhead := head_toDigits_ne_zero hn
    rw [← digitRun_digits (fun c => isDigit_of_mem_toDigits) Nat.toDigits_ne_nil, wholePart]
    intro rest' heq
    have hzero := congrArg List.head? heq
    rw [List.head?_append_of_ne_nil _ Nat.toDigits_ne_nil] at hzero
    exact hhead hzero

theorem sign_of_isDigit (hc : isDigit c = true) : sign (c :: w) = (false, c :: w) := by
  rw [sign]
  · rintro rest ⟨⟩
    cases hc
  · rintro rest ⟨⟩
    cases hc

theorem integer?_of_lt {n : Nat} (hn : n < 0x8000000000000000) :
    integer? (n : Int) = some (.integer n) := by
  rw [integer?, if_pos (by omega)]

theorem decimalNumber_toDigits {n : Nat} (hn : n < 0x8000000000000000) :
    decimalNumber (Nat.toDigits 10 n ++ '\n' :: rest) = some (.integer n, '\n' :: rest) := by
  have hsign : sign (Nat.toDigits 10 n ++ '\n' :: rest) =
      (false, Nat.toDigits 10 n ++ '\n' :: rest) := by
    obtain ⟨d, ds, hdigits, hd⟩ := exists_toDigits_eq n
    rw [hdigits]
    exact sign_of_isDigit hd
  -- The end of the line is the start of neither a fraction nor an exponent.
  have hfraction : fractionPart ('\n' :: rest) = some (none, '\n' :: rest) := rfl
  have hexponent : exponentPart ('\n' :: rest) = some (none, '\n' :: rest) := rfl
  unfold decimalNumber
  rw [hsign]
  dsimp only
  rw [wholePart_toDigits, Option.bind_eq_bind, Option.bind_some]
  dsimp only
  rw [hfraction, Option.bind_eq_bind, Option.bind_some]
  dsimp only
  rw [hexponent, Option.bind_eq_bind, Option.bind_some]
  dsimp only
  rw [digitsValue_toDigits, if_neg Bool.false_ne_true, integer?_of_lt hn]
  rfl

theorem number_toDigits {n : Nat} (hn : n < 0x8000000000000000) :
    number (Nat.toDigits 10 n ++ '\n' :: rest) = some (.integer n, '\n' :: rest) := by
  rw [← decimalNumber_toDigits hn]
  rcases Nat.eq_zero_or_pos n with rfl | hpos
  · rw [Nat.toDigits_of_lt_base (by decide)]
    simp [number, sign]
  · obtain ⟨d, ds, hdigits, hd⟩ := exists_toDigits_eq n
    -- Only a zero in front could be the mark of another base.
    have hzero : d ≠ '0' := by
      have hhead := head_toDigits_ne_zero hpos
      rw [hdigits] at hhead
      simpa using hhead
    have hi : d ≠ 'i' := ne_of_class hd rfl
    have hn : d ≠ 'n' := ne_of_class hd rfl
    rw [hdigits, List.cons_append]
    simp [number, sign_of_isDigit hd, hzero, hi, hn]

/-! ## Digits are neither a date nor a time -/

/-- What is left after some of the digits of a line. -/
theorem fixedNumber_digits {ds : List Char} {width low high m : Nat}
    (h : fixedNumber width low high (ds ++ '\n' :: rest) = some (m, w)) :
    w = ds.drop width ++ '\n' :: rest := by
  simp only [fixedNumber, Option.ite_none_right_eq_some, Option.some.injEq, Prod.mk.injEq] at h
  obtain ⟨⟨hlength, hall, -⟩, -, rfl⟩ := h
  have hwidth : width ≤ ds.length := by
    by_contra hlong
    have hnewline : '\n' ∈ (ds ++ '\n' :: rest).take width := by
      rw [List.take_append]
      refine List.mem_append_right _ ?_
      obtain ⟨k, hk⟩ : ∃ k, width - ds.length = k + 1 := ⟨width - ds.length - 1, by omega⟩
      rw [hk, List.take_succ_cons]
      exact List.mem_cons_self
    have hdigit := List.all_eq_true.1 hall '\n' hnewline
    cases hdigit
  rw [List.drop_append_of_le_length hwidth]

theorem mark_digits {ds : List Char} (hds : ∀ c ∈ ds, isDigit c = true) {m : Char}
    (hm : isDigit m = false) (hnewline : m ≠ '\n') (width : Nat) :
    mark m (ds.drop width ++ '\n' :: rest) = none := by
  cases hdrop : ds.drop width with
  | nil => rw [List.nil_append, mark, if_neg hnewline]
  | cons d ds' =>
    have hd : isDigit d = true := by
      refine hds d (List.mem_of_mem_drop (i := width) ?_)
      rw [hdrop]
      exact List.mem_cons_self
    rw [List.cons_append, mark, if_neg (ne_of_class hd hm).symm]

theorem dateTime_digits {ds : List Char} (hds : ∀ c ∈ ds, isDigit c = true) :
    dateTime (ds ++ '\n' :: rest) = none := by
  have hdate : skipDate (ds ++ '\n' :: rest) = none := by
    cases hyear : fixedNumber 4 0 9999 (ds ++ '\n' :: rest) with
    | none => simp [skipDate, hyear]
    | some r =>
      obtain ⟨year, w⟩ := r
      obtain rfl := fixedNumber_digits hyear
      have hmark : mark '-' (ds.drop 4 ++ '\n' :: rest) = none := mark_digits hds rfl (by decide) 4
      simp [skipDate, hyear, hmark]
  have htime : skipTime (ds ++ '\n' :: rest) = none := by
    cases hhour : fixedNumber 2 0 23 (ds ++ '\n' :: rest) with
    | none => simp [skipTime, hhour]
    | some r =>
      obtain ⟨hour, w⟩ := r
      obtain rfl := fixedNumber_digits hhour
      have hmark : mark ':' (ds.drop 2 ++ '\n' :: rest) = none := mark_digits hds rfl (by decide) 2
      simp [skipTime, hhour, hmark]
  rw [dateTime, hdate, htime, Option.map_none]

theorem value_eq_scalar (harray : c ≠ '[') (htable : c ≠ '\x7b') (depth : Nat) :
    value depth (c :: w) = scalar (c :: w) := by
  cases depth with
  | zero => simp [value, harray, htable]
  | succ depth => simp [value, harray, htable]

/-- A number is read up to the end of its line. -/
theorem value_decimal {n : Nat} (hn : n < 0x8000000000000000) (depth : Nat) :
    value depth (Nat.toDigits 10 n ++ '\n' :: rest) = some (.integer n, '\n' :: rest) := by
  have hdateTime : dateTime (Nat.toDigits 10 n ++ '\n' :: rest) = none :=
    dateTime_digits fun c hc => isDigit_of_mem_toDigits hc
  have hnumber : number (Nat.toDigits 10 n ++ '\n' :: rest) = some (.integer n, '\n' :: rest) :=
    number_toDigits hn
  obtain ⟨d, ds, hdigits, hd⟩ := exists_toDigits_eq n
  have hne : ∀ other, isDigit other = false → d ≠ other := fun other => ne_of_class hd
  rw [hdigits, List.cons_append] at hdateTime hnumber ⊢
  rw [value_eq_scalar (hne '[' rfl) (hne '\x7b' rfl)]
  simp [scalar, hne '"' rfl, hne '\'' rfl, hne 't' rfl, hne 'f' rfl, hdateTime, hnumber]

/-! ## Keys -/

theorem isBlank_of_isBareChar (hc : isBareChar c = true) : isBlank c = false := by
  have hspace : c ≠ ' ' := ne_of_class hc rfl
  have htab : c ≠ '\t' := ne_of_class hc rfl
  simp [isBlank, hspace, htab]

theorem isBareChar_of_isDigit (hc : isDigit c = true) : isBareChar c = true := by
  simp [isBareChar, hc]

theorem skipBlanks_of_not_isBlank (hc : isBlank c = false) : skipBlanks (c :: w) = c :: w := by
  rw [skipBlanks, List.dropWhile_cons_of_neg (by simp [hc])]

theorem keyPart_bare {k : List Char} (hk : ∀ c ∈ k, isBareChar c = true) (hne : k ≠ [])
    (hstop : ∀ c ∈ rest.head?, isBareChar c = false) :
    keyPart (k ++ rest) = some (String.ofList k, skipBlanks rest) := by
  have htake : (k ++ rest).takeWhile isBareChar = k := by
    rw [List.takeWhile_append_of_pos hk]
    cases rest with
    | nil => simp
    | cons c rest => simp [hstop c rfl]
  have hdrop : (k ++ rest).dropWhile isBareChar = rest := by
    rw [List.dropWhile_append_of_pos hk]
    cases rest with
    | nil => rfl
    | cons c rest => simp [hstop c rfl]
  obtain ⟨c, cs, rfl⟩ := List.exists_cons_of_ne_nil hne
  have hc : isBareChar c = true := hk c List.mem_cons_self
  have hquotes : ¬ (c = '"' ∨ c = '\'') := by
    rw [not_or]
    exact ⟨ne_of_class hc rfl, ne_of_class hc rfl⟩
  rw [List.cons_append] at htake hdrop ⊢
  rw [keyPart, skipBlanks_of_not_isBlank (isBlank_of_isBareChar hc)]
  simp only [hquotes, if_false, hc, if_true, htake, hdrop]

/-- A key without quotes is read up to the first character that cannot stand in
it; blanks behind it are left out. -/
theorem key_bare {k : List Char} (hk : ∀ c ∈ k, isBareChar c = true) (hne : k ≠ [])
    (hstop : ∀ c ∈ rest.head?, isBareChar c = false)
    (hpoint : (skipBlanks rest).head? ≠ some '.') :
    key (k ++ rest) = some ([String.ofList k], skipBlanks rest) := by
  have hparts : keyParts ((k ++ rest).length + 1) (k ++ rest) =
      some ([String.ofList k], skipBlanks rest) := by
    rw [keyParts, keyPart_bare hk hne hstop, Option.bind_some]
    cases hrest : skipBlanks rest with
    | nil => rfl
    | cons c w =>
      rw [hrest] at hpoint
      have hc : c ≠ '.' := by simpa using hpoint
      simp [hc]
  have hlength : [String.ofList k].length < nestingLimit := by simp [nestingLimit]
  rw [key, hparts, Option.bind_some]
  simp only [hlength, if_true]

end Breaker.Toml
