import Corsair.Verified.ByteCut
import Corsair.Ports.TimeToExpiry

/-!
# `corsair_trader::tte_cache`: which texts `parse_expiry` takes for dates

The text of an expiry comes from the wire.  Its length is counted in bytes, its pieces are cut
at bytes, and the pieces are parsed as integers, which may have a sign.  So there are texts that
are not eight digits and are taken for a date, and texts on which a cut falls within a character
and the thread panics.

`TimeToExpiry.parseExpiry` is the same function without the panics.

## Main results

* `parseExpiry_eq_value_iff` — the texts that are taken for dates.
* `parseExpiry_panics_iff` — the texts on which a cut panics.
* `parseExpiry_eq` — elsewhere it is `TimeToExpiry.parseExpiry`.
* `grammar_iff` — when it does what its documentation says.
-/

namespace Corsair.Ports.ExpiryGrammar

open Corsair.Verified
open Corsair.Verified.Checked
open Corsair.Verified.ByteCut
open Corsair.Ports.Portfolio (Date)
open Corsair.Ports.NativeDecoder
open Corsair.Ports.TimeToExpiry

/-! ## The parser -/

/-- `.parse().ok()?` -/
def ofExcept {α : Type} : Except String α → Checked α
  | .ok a => .value a
  | .error _ => .nothing

/-- `parse_expiry`. -/
def parseExpiry (expiry : String) : Checked Int :=
  if expiry.utf8ByteSize ≠ 8 then .nothing
  else do
    let year ← ofExcept (parseSigned (-2147483648) 2147483647 (← indexText expiry 0 4))
    let month ← ofExcept (parseUnsigned 4294967295 (← indexText expiry 4 6))
    let day ← ofExcept (parseUnsigned 4294967295 (← indexText expiry 6 8))
    ofOption (withYmdHour year month day 21)

/-! ## What is asked of it -/

/-- The date that the digits of a text name: four for the year, two and two. -/
def namedDate (cs : List Char) : Date where
  year := (Nat.ofDigitChars 10 (cs.take 4) 0 : Nat)
  month := Nat.ofDigitChars 10 ((cs.drop 4).take 2) 0
  day := Nat.ofDigitChars 10 ((cs.drop 6).take 2) 0

/-- Eight digits that name a date that exists. -/
def NamesDate (expiry : String) : Prop :=
  expiry.toList.length = 8 ∧ Digits expiry ∧ DateValid (namedDate expiry.toList)

/-- What the documentation says: 21:00 on the date that the text names, and nothing for another
text. -/
structure Documented (expiry : String) : Prop where
  dated : NamesDate expiry → parseExpiry expiry = .value (atHour (namedDate expiry.toList) 21)
  malformed : ¬NamesDate expiry → parseExpiry expiry = .nothing

/-! ## Texts of numbers -/

/-- Digits, with a plus or without. -/
def UnsignedText (cs : List Char) (n : Nat) : Prop :=
  ∃ digits, digits ≠ [] ∧ (∀ c ∈ digits, c.isDigit) ∧ (cs = digits ∨ cs = '+' :: digits) ∧
    n = Nat.ofDigitChars 10 digits 0

/-- So, or digits with a minus. -/
def SignedText (cs : List Char) (n : Int) : Prop :=
  (∃ k : Nat, UnsignedText cs k ∧ n = k) ∨
    ∃ digits, digits ≠ [] ∧ (∀ c ∈ digits, c.isDigit) ∧ cs = '-' :: digits ∧
      n = -(Nat.ofDigitChars 10 digits 0 : Nat)

/-- Four, two and two characters that are numbers. -/
def Reads (expiry : String) (year : Int) (month day : Nat) : Prop :=
  ∃ y m d, expiry.toList = y ++ m ++ d ∧ (y.length = 4 ∧ m.length = 2 ∧ d.length = 2) ∧
    SignedText y year ∧ UnsignedText m month ∧ UnsignedText d day

/-- A date with a sign in it where a digit should be. -/
def SignedDate (expiry : String) : Prop :=
  ¬Digits expiry ∧ ∃ year month day, Reads expiry year month day ∧ DateValid ⟨year, month, day⟩

/-- A character across the fourth of eight bytes, or, behind a year, across the sixth. -/
def Torn (expiry : String) : Prop :=
  expiry.utf8ByteSize = 8 ∧
    (¬Boundary expiry.toList 4 ∨ ∃ y rest, expiry.toList = y ++ rest ∧ bytes y = 4 ∧
      (∃ year, SignedText y year) ∧ ¬Boundary rest 2)

theorem isDigit_of_digitValue {c : Char} {d : Int} (h : digitValue c = some d) :
    c.isDigit ∧ d = (c.toNat - '0'.toNat : Nat) := by
  unfold digitValue at h
  split at h
  · rename_i hrange
    exact ⟨isDigit_iff.mpr hrange, (Option.some.inj h).symm⟩
  · cases h

theorem digits_of_parseUp {hi n : Int} {digits : List Char} (acc : Nat)
    (h : parseUp hi acc digits = .ok n) :
    (∀ c ∈ digits, c.isDigit) ∧ n = (Nat.ofDigitChars 10 digits acc : Nat) := by
  induction digits generalizing acc with
  | nil => exact ⟨nofun, (Except.ok.inj h).symm⟩
  | cons c rest ih =>
      unfold parseUp at h
      cases hdigit : digitValue c with
      | none =>
          rw [hdigit] at h
          cases h
      | some d =>
          obtain ⟨hc, rfl⟩ := isDigit_of_digitValue hdigit
          rw [hdigit] at h
          dsimp only at h
          split at h
          · cases h
          · have hacc : (acc : Int) * 10 + (c.toNat - '0'.toNat : Nat) =
                (10 * acc + (c.toNat - '0'.toNat) : Nat) := by
              push_cast
              ring
            rw [hacc] at h
            obtain ⟨hrest, hn⟩ := ih _ h
            exact ⟨List.forall_mem_cons.mpr ⟨hc, hrest⟩, by rw [hn, Nat.ofDigitChars_cons]⟩

/-- Counting down is counting up, the other way. -/
theorem parseDown_eq_ok_iff {lo acc n : Int} {digits : List Char} :
    parseDown lo acc digits = .ok n ↔ parseUp (-lo) (-acc) digits = .ok (-n) := by
  induction digits generalizing acc with
  | nil => simp [parseDown, parseUp]
  | cons c rest ih =>
      unfold parseDown parseUp
      cases hdigit : digitValue c with
      | none => simp
      | some d =>
          have hacc : -(acc * 10 - d) = -acc * 10 + d := by ring
          dsimp only
          rw [← hacc]
          by_cases hlow : acc * 10 - d < lo
          · rw [if_pos hlow, if_pos (by omega)]
            simp
          · rw [if_neg hlow, if_neg (by omega)]
            exact ih

/-- A number of few digits is small. -/
theorem ofDigitChars_lt {digits : List Char} (h : ∀ c ∈ digits, c.isDigit) :
    Nat.ofDigitChars 10 digits 0 < 10 ^ digits.length := by
  induction digits with
  | nil => decide
  | cons c rest ih =>
      rw [List.forall_mem_cons] at h
      have hrest := ih h.2
      have hc : c.toNat - '0'.toNat < 10 := by
        have hle := (isDigit_iff.mp h.1).2
        have htop : c.toNat ≤ '9'.toNat := hle
        have hnine : '9'.toNat = 57 := rfl
        have hzero : '0'.toNat = 48 := rfl
        omega
      rw [Nat.ofDigitChars_cons, Nat.ofDigitChars_eq_ofDigitChars_zero, List.length_cons,
        Nat.pow_succ]
      nlinarith

theorem parseUp_eq_ok_iff {hi n : Int} {digits : List Char} (hlen : digits.length ≤ 4)
    (hhi : 9999 ≤ hi) :
    parseUp hi 0 digits = .ok n ↔
      (∀ c ∈ digits, c.isDigit) ∧ n = (Nat.ofDigitChars 10 digits 0 : Nat) := by
  constructor
  · intro h
    exact digits_of_parseUp 0 h
  · rintro ⟨hdigits, rfl⟩
    have hlt := ofDigitChars_lt hdigits
    have hpow : 10 ^ digits.length ≤ 10 ^ 4 := Nat.pow_le_pow_right (by decide) hlen
    exact parseUp_of_digits hdigits 0 (by omega)

theorem unsignedText_plus {digits : List Char} {n : Nat} :
    UnsignedText ('+' :: digits) n ↔
      digits ≠ [] ∧ (∀ c ∈ digits, c.isDigit) ∧ n = Nat.ofDigitChars 10 digits 0 := by
  constructor
  · rintro ⟨ds, hne, hdigits, hcs | hcs, hn⟩
    · have hplus := hdigits '+' (hcs ▸ List.mem_cons_self)
      cases hplus
    · obtain rfl := (List.cons.inj hcs).2
      exact ⟨hne, hdigits, hn⟩
  · rintro ⟨hne, hdigits, hn⟩
    exact ⟨digits, hne, hdigits, .inr rfl, hn⟩

theorem unsignedText_bare {cs : List Char} {n : Nat} (hcs : ∀ digits, cs ≠ '+' :: digits) :
    UnsignedText cs n ↔
      cs ≠ [] ∧ (∀ c ∈ cs, c.isDigit) ∧ n = Nat.ofDigitChars 10 cs 0 := by
  constructor
  · rintro ⟨ds, hne, hdigits, rfl | hplus, hn⟩
    · exact ⟨hne, hdigits, hn⟩
    · exact absurd hplus (hcs ds)
  · rintro ⟨hne, hdigits, hn⟩
    exact ⟨cs, hne, hdigits, .inl rfl, hn⟩

/-- **The integer parser** takes digits, with a plus or without. -/
theorem parseUnsigned_eq_ok_iff {cs : List Char} (hlen : cs.length ≤ 4) {hi n : Int}
    (hhi : 9999 ≤ hi) :
    parseUnsigned hi (String.ofList cs) = .ok n ↔ ∃ k : Nat, UnsignedText cs k ∧ n = k := by
  have hsplit (digits : List Char) (hlen : digits.length ≤ 4) (hne : digits ≠ []) :
      parseUp hi 0 digits = .ok n ↔ ∃ k : Nat, (digits ≠ [] ∧ (∀ c ∈ digits, c.isDigit) ∧
        k = Nat.ofDigitChars 10 digits 0) ∧ n = k := by
    rw [parseUp_eq_ok_iff hlen hhi]
    constructor
    · rintro ⟨hdigits, hn⟩
      exact ⟨_, ⟨hne, hdigits, rfl⟩, hn⟩
    · rintro ⟨k, ⟨-, hdigits, rfl⟩, hn⟩
      exact ⟨hdigits, hn⟩
  unfold parseUnsigned
  rw [String.toList_ofList]
  split
  · refine iff_of_false nofun ?_
    rintro ⟨k, hk, -⟩
    exact ((unsignedText_bare (by simp)).mp hk).1 rfl
  · refine iff_of_false nofun ?_
    rintro ⟨k, hk, -⟩
    exact (unsignedText_plus.mp hk).1 rfl
  · refine iff_of_false nofun ?_
    rintro ⟨k, hk, -⟩
    have hminus := ((unsignedText_bare (by simp)).mp hk).2.1 '-' List.mem_cons_self
    cases hminus
  · rename_i digits hempty
    have hne : digits ≠ [] := fun h => hempty (by rw [h])
    simp only [unsignedText_plus]
    exact hsplit digits (by rw [List.length_cons] at hlen; omega) hne
  · rename_i hempty hplus hminus hsigned
    simp only [unsignedText_bare hsigned]
    exact hsplit cs hlen hempty

theorem signedText_minus {digits : List Char} {n : Int} :
    SignedText ('-' :: digits) n ↔
      digits ≠ [] ∧ (∀ c ∈ digits, c.isDigit) ∧ n = -(Nat.ofDigitChars 10 digits 0 : Nat) := by
  constructor
  · rintro (⟨k, hk, -⟩ | ⟨ds, hne, hdigits, hcs, hn⟩)
    · have hminus := ((unsignedText_bare (by simp)).mp hk).2.1 '-' List.mem_cons_self
      cases hminus
    · obtain rfl := (List.cons.inj hcs).2
      exact ⟨hne, hdigits, hn⟩
  · rintro ⟨hne, hdigits, hn⟩
    exact .inr ⟨digits, hne, hdigits, rfl, hn⟩

theorem signedText_bare {cs : List Char} {n : Int} (hcs : ∀ digits, cs ≠ '-' :: digits) :
    SignedText cs n ↔ ∃ k : Nat, UnsignedText cs k ∧ n = k := by
  constructor
  · rintro (h | ⟨ds, -, -, hminus, -⟩)
    · exact h
    · exact absurd hminus (hcs ds)
  · exact .inl

/-- For a year it takes a minus too. -/
theorem parseSigned_eq_ok_iff {cs : List Char} (hlen : cs.length ≤ 4) {lo hi n : Int}
    (hlo : lo ≤ -9999) (hhi : 9999 ≤ hi) :
    parseSigned lo hi (String.ofList cs) = .ok n ↔ SignedText cs n := by
  by_cases hminus : ∃ digits, cs = '-' :: digits
  · obtain ⟨digits, rfl⟩ := hminus
    rw [List.length_cons] at hlen
    rw [signedText_minus]
    cases digits with
    | nil =>
        refine iff_of_false ?_ fun h => h.1 rfl
        simp [parseSigned]
    | cons c rest =>
        have hdown : parseSigned lo hi (String.ofList ('-' :: c :: rest)) =
            parseDown lo 0 (c :: rest) := by
          simp [parseSigned]
        rw [hdown, parseDown_eq_ok_iff, neg_zero, parseUp_eq_ok_iff (by omega) (by omega),
          neg_eq_iff_eq_neg]
        exact ⟨fun h => ⟨by simp, h⟩, And.right⟩
  · have hbare : ∀ digits, cs ≠ '-' :: digits := fun digits h => hminus ⟨digits, h⟩
    have hsame : parseSigned lo hi (String.ofList cs) = parseUnsigned hi (String.ofList cs) := by
      unfold parseSigned parseUnsigned
      rw [String.toList_ofList]
      split
      · rfl
      · rfl
      · rfl
      · rename_i digits hempty
        cases digits with
        | nil => exact (hempty rfl).elim
        | cons c rest => simp
      · exact absurd rfl (hbare _)
      · rename_i hempty hplus hminus hsigned _
        split
        · exact (hempty rfl).elim
        · exact (hplus rfl).elim
        · exact (hminus rfl).elim
        · exact (hsigned _ rfl).elim
        · rfl
    rw [hsame, signedText_bare hbare, parseUnsigned_eq_ok_iff hlen hhi]

theorem parseYear_iff {y : List Char} (hlen : y.length ≤ 4) {n : Int} :
    parseSigned (-2147483648) 2147483647 (String.ofList y) = .ok n ↔ SignedText y n :=
  parseSigned_eq_ok_iff hlen (by decide) (by decide)

theorem parsePart_iff {cs : List Char} (hlen : cs.length ≤ 2) {n : Int} :
    parseUnsigned 4294967295 (String.ofList cs) = .ok n ↔ ∃ k : Nat, UnsignedText cs k ∧ n = k :=
  parseUnsigned_eq_ok_iff (hlen.trans (by decide)) (by decide)

/-! ## The three pieces -/

theorem utf8Size_of_isDigit {c : Char} (h : c.isDigit) : c.utf8Size = 1 :=
  Char.utf8Size_eq_one_iff.mpr (UInt32.le_trans (isDigit_iff.mp h).2 (by decide))

theorem bytes_of_unsignedText {cs : List Char} {n : Nat} (h : UnsignedText cs n) :
    bytes cs = cs.length := by
  obtain ⟨digits, -, hdigits, rfl | rfl, -⟩ := h
  · exact bytes_eq_length fun c hc => utf8Size_of_isDigit (hdigits c hc)
  · refine bytes_eq_length (List.forall_mem_cons.mpr ⟨by decide, fun c hc => ?_⟩)
    exact utf8Size_of_isDigit (hdigits c hc)

theorem bytes_of_signedText {cs : List Char} {n : Int} (h : SignedText cs n) :
    bytes cs = cs.length := by
  rcases h with ⟨k, hk, -⟩ | ⟨digits, -, hdigits, rfl, -⟩
  · exact bytes_of_unsignedText hk
  · refine bytes_eq_length (List.forall_mem_cons.mpr ⟨by decide, fun c hc => ?_⟩)
    exact utf8Size_of_isDigit (hdigits c hc)

theorem ofExcept_bind_eq_value {α β : Type} {x : Except String α} {f : α → Checked β} {b : β} :
    (ofExcept x >>= f) = .value b ↔ ∃ a, x = .ok a ∧ f a = .value b := by
  cases x with
  | error e => exact ⟨nofun, fun ⟨_, h, _⟩ => nomatch h⟩
  | ok a => exact ⟨fun h => ⟨a, rfl, h⟩, fun ⟨_, ha, h⟩ => by cases ha; exact h⟩

theorem returned_ofExcept_bind {α β : Type} {x : Except String α} {f : α → Checked β}
    (h : ∀ a, (f a).Returned) : (ofExcept x >>= f).Returned := by
  cases x with
  | error e => exact ⟨none, rfl⟩
  | ok a => exact h a

theorem withYmdHour_eq_some_iff {year hour t : Int} {month day : Nat} :
    withYmdHour year month day hour = some t ↔
      DateValid ⟨year, month, day⟩ ∧ t = atHour ⟨year, month, day⟩ hour := by
  unfold withYmdHour
  simp only [Int.toNat_natCast]
  split
  · rename_i hvalid
    exact ⟨fun h => ⟨hvalid, (Option.some.inj h).symm⟩, fun h => congrArg some h.2.symm⟩
  · rename_i hvalid
    exact ⟨nofun, fun h => absurd h.1 hvalid⟩

theorem parseExpiry_of_size_ne {s : String} (hsize : s.utf8ByteSize ≠ 8) :
    parseExpiry s = .nothing := if_pos hsize

theorem parseExpiry_of_size {s : String} (hsize : s.utf8ByteSize = 8) :
    parseExpiry s = (do
      let year ← ofExcept (parseSigned (-2147483648) 2147483647 (← indexText s 0 4))
      let month ← ofExcept (parseUnsigned 4294967295 (← indexText s 4 6))
      let day ← ofExcept (parseUnsigned 4294967295 (← indexText s 6 8))
      ofOption (withYmdHour year month day 21)) := if_neg (not_not_intro hsize)

section Pieces

variable {s : String} {y m d : List Char} (hs : s.toList = y ++ m ++ d) (hy : bytes y = 4)
  (hm : bytes m = 2) (hd : bytes d = 2)

include hs hy hm hd

/-- No cut falls within a character. -/
theorem parseExpiry_of_pieces :
    parseExpiry s = (do
      let year ← ofExcept (parseSigned (-2147483648) 2147483647 (String.ofList y))
      let month ← ofExcept (parseUnsigned 4294967295 (String.ofList m))
      let day ← ofExcept (parseUnsigned 4294967295 (String.ofList d))
      ofOption (withYmdHour year month day 21)) := by
  have hfirst : indexText s 0 4 = .value (String.ofList y) := by
    have h := @indexText_of_append s [] y (m ++ d) (by simp [hs])
    simpa [hy] using h
  have hsecond : indexText s 4 6 = .value (String.ofList m) := by
    have h := @indexText_of_append s y m d hs
    simpa [hy, hm] using h
  have hthird : indexText s 6 8 = .value (String.ofList d) := by
    have h := @indexText_of_append s (y ++ m) d [] (by simp [hs])
    simpa [hy, hm, hd] using h
  have hsize : s.utf8ByteSize = 8 := by
    rw [utf8ByteSize_eq, hs, bytes_append, bytes_append, hy, hm, hd]
  rw [parseExpiry_of_size hsize, hfirst, hsecond, hthird]
  rfl

theorem parseExpiry_pieces_iff {t : Int} :
    parseExpiry s = .value t ↔
      ∃ year month day, (SignedText y year ∧ UnsignedText m month ∧ UnsignedText d day) ∧
        DateValid ⟨year, month, day⟩ ∧ t = atHour ⟨year, month, day⟩ 21 := by
  have hylen : y.length ≤ 4 := hy ▸ length_le_bytes y
  have hmlen : m.length ≤ 2 := hm ▸ length_le_bytes m
  have hdlen : d.length ≤ 2 := hd ▸ length_le_bytes d
  rw [parseExpiry_of_pieces hs hy hm hd]
  simp only [ofExcept_bind_eq_value, ofOption_eq_value, parseYear_iff hylen, parsePart_iff hmlen,
    parsePart_iff hdlen]
  constructor
  · rintro ⟨year, hy', month, ⟨k, hk, rfl⟩, day, ⟨l, hl, rfl⟩, hdate⟩
    obtain ⟨hvalid, ht⟩ := withYmdHour_eq_some_iff.mp hdate
    exact ⟨year, k, l, ⟨hy', hk, hl⟩, hvalid, ht⟩
  · rintro ⟨year, month, day, ⟨hy', hm', hd'⟩, hvalid, ht⟩
    exact ⟨year, hy', month, ⟨month, hm', rfl⟩, day, ⟨day, hd', rfl⟩,
      withYmdHour_eq_some_iff.mpr ⟨hvalid, ht⟩⟩

theorem returned_of_pieces : (parseExpiry s).Returned := by
  rw [parseExpiry_of_pieces hs hy hm hd]
  exact returned_ofExcept_bind fun year => returned_ofExcept_bind fun month =>
    returned_ofExcept_bind fun day => ⟨_, rfl⟩

end Pieces

/-! ## Where the cuts fall -/

/-- A text of eight bytes is cut within a character at the fourth byte, or behind four bytes at
the sixth, or it is three pieces. -/
theorem cuts {s : String} (hsize : s.utf8ByteSize = 8) :
    ¬Boundary s.toList 4 ∨
      (∃ y rest, s.toList = y ++ rest ∧ bytes y = 4 ∧ ¬Boundary rest 2) ∨
      ∃ y m d, s.toList = y ++ m ++ d ∧ bytes y = 4 ∧ bytes m = 2 ∧ bytes d = 2 := by
  by_cases hfour : Boundary s.toList 4
  · obtain ⟨y, rest, hs, hy⟩ := hfour
    by_cases htwo : Boundary rest 2
    · obtain ⟨m, d, rfl, hm⟩ := htwo
      refine .inr (.inr ⟨y, m, d, by rw [hs, List.append_assoc], hy, hm, ?_⟩)
      rw [utf8ByteSize_eq, hs, bytes_append, bytes_append] at hsize
      omega
    · exact .inr (.inl ⟨y, rest, hs, hy, htwo⟩)
  · exact .inl hfour

/-- Behind a year, the cut at the sixth byte panics. -/
theorem parseExpiry_of_year {s : String} {y rest : List Char} (hsize : s.utf8ByteSize = 8)
    (hs : s.toList = y ++ rest) (hy : bytes y = 4) (htwo : ¬Boundary rest 2) :
    parseExpiry s = (do
      let _ ← ofExcept (parseSigned (-2147483648) 2147483647 (String.ofList y))
      .outOfRange) := by
  have hsix : ¬Boundary s.toList 6 := by
    rw [hs, show 6 = bytes y + 2 by rw [hy], boundary_append]
    exact htwo
  have hfirst : indexText s 0 4 = .value (String.ofList y) := by
    have h := @indexText_of_append s [] y rest (by simp [hs])
    simpa [hy] using h
  rw [parseExpiry_of_size hsize, hfirst, indexText_not_boundary hsix, value_bind]
  rfl

/-- **On a torn text the slice panics**, and on no other. -/
theorem parseExpiry_torn_or_returned (s : String) :
    Torn s ∧ parseExpiry s = .outOfRange ∨ ¬Torn s ∧ (parseExpiry s).Returned := by
  by_cases hsize : s.utf8ByteSize = 8
  · rcases cuts hsize with hfour | ⟨y, rest, hs, hy, htwo⟩ | ⟨y, m, d, hs, hy, hm, hd⟩
    · refine .inl ⟨⟨hsize, .inl hfour⟩, ?_⟩
      rw [parseExpiry_of_size hsize, indexText_not_boundary hfour]
      rfl
    · have hyear {n : Int} : parseSigned (-2147483648) 2147483647 (String.ofList y) = .ok n ↔
          SignedText y n := parseYear_iff (hy ▸ length_le_bytes y)
      rw [parseExpiry_of_year hsize hs hy htwo]
      cases hparse : parseSigned (-2147483648) 2147483647 (String.ofList y) with
      | ok year =>
          exact .inl ⟨⟨hsize, .inr ⟨y, rest, hs, hy, ⟨year, hyear.mp hparse⟩, htwo⟩⟩, rfl⟩
      | error e =>
          refine .inr ⟨?_, none, rfl⟩
          rintro ⟨-, hfour | ⟨y', rest', hs', hy', ⟨year, hyear'⟩, -⟩⟩
          · exact hfour ⟨y, rest, hs, hy⟩
          · obtain ⟨rfl, -⟩ := append_inj (hs.symm.trans hs') (hy.trans hy'.symm)
            rw [hyear.mpr hyear'] at hparse
            cases hparse
    · refine .inr ⟨?_, returned_of_pieces hs hy hm hd⟩
      rw [List.append_assoc] at hs
      rintro ⟨-, hfour | ⟨y', rest', hs', hy', -, htwo⟩⟩
      · exact hfour ⟨y, m ++ d, hs, hy⟩
      · obtain ⟨-, rfl⟩ := append_inj (hs.symm.trans hs') (hy.trans hy'.symm)
        exact htwo ⟨m, d, rfl, hm⟩
  · exact .inr ⟨fun htorn => hsize htorn.1, none, parseExpiry_of_size_ne hsize⟩

theorem parseExpiry_panics_iff (s : String) : parseExpiry s = .outOfRange ↔ Torn s := by
  rcases parseExpiry_torn_or_returned s with ⟨htorn, hpanic⟩ | ⟨htorn, o, hreturned⟩
  · exact iff_of_true hpanic htorn
  · refine iff_of_false ?_ htorn
    rw [hreturned]
    cases o <;> exact nofun

/-- **The texts that are taken for dates.** -/
theorem parseExpiry_eq_value_iff {s : String} {t : Int} :
    parseExpiry s = .value t ↔
      ∃ year month day, Reads s year month day ∧ DateValid ⟨year, month, day⟩ ∧
        t = atHour ⟨year, month, day⟩ 21 := by
  constructor
  · intro h
    have hsize : s.utf8ByteSize = 8 := by
      by_contra hsize
      rw [parseExpiry_of_size_ne hsize] at h
      cases h
    have hreturns : ¬Torn s := fun htorn => by
      rw [(parseExpiry_panics_iff s).mpr htorn] at h
      cases h
    rcases cuts hsize with hfour | ⟨y, rest, hs, hy, htwo⟩ | ⟨y, m, d, hs, hy, hm, hd⟩
    · exact absurd ⟨hsize, .inl hfour⟩ hreturns
    · rw [parseExpiry_of_year hsize hs hy htwo] at h
      obtain ⟨year, -, hpanic⟩ := ofExcept_bind_eq_value.mp h
      cases hpanic
    · obtain ⟨year, month, day, ⟨hy', hm', hd'⟩, hdate⟩ :=
        (parseExpiry_pieces_iff hs hy hm hd).mp h
      refine ⟨year, month, day, ⟨y, m, d, hs, ⟨?_, ?_, ?_⟩, hy', hm', hd'⟩, hdate⟩
      · rw [← bytes_of_signedText hy', hy]
      · rw [← bytes_of_unsignedText hm', hm]
      · rw [← bytes_of_unsignedText hd', hd]
  · rintro ⟨year, month, day, ⟨y, m, d, hs, ⟨hylen, hmlen, hdlen⟩, hy, hm, hd⟩, hdate⟩
    exact (parseExpiry_pieces_iff hs ((bytes_of_signedText hy).trans hylen)
      ((bytes_of_unsignedText hm).trans hmlen) ((bytes_of_unsignedText hd).trans hdlen)).mpr
        ⟨year, month, day, ⟨hy, hm, hd⟩, hdate⟩

/-! ## The text that is asked for -/

theorem unsignedText_of_digits {cs : List Char} (h : ∀ c ∈ cs, c.isDigit) {n : Nat} :
    UnsignedText cs n ↔ cs ≠ [] ∧ n = Nat.ofDigitChars 10 cs 0 := by
  have hplus : ∀ digits, cs ≠ '+' :: digits := by
    rintro digits rfl
    have hdigit := h '+' List.mem_cons_self
    cases hdigit
  rw [unsignedText_bare hplus]
  exact ⟨fun ⟨hne, _, hn⟩ => ⟨hne, hn⟩, fun ⟨hne, hn⟩ => ⟨hne, h, hn⟩⟩

theorem signedText_of_digits {cs : List Char} (h : ∀ c ∈ cs, c.isDigit) {n : Int} :
    SignedText cs n ↔ cs ≠ [] ∧ n = (Nat.ofDigitChars 10 cs 0 : Nat) := by
  have hminus : ∀ digits, cs ≠ '-' :: digits := by
    rintro digits rfl
    have hdigit := h '-' List.mem_cons_self
    cases hdigit
  simp only [signedText_bare hminus, unsignedText_of_digits h]
  constructor
  · rintro ⟨k, ⟨hne, rfl⟩, hn⟩
    exact ⟨hne, hn⟩
  · rintro ⟨hne, hn⟩
    exact ⟨_, ⟨hne, rfl⟩, hn⟩

/-- The pieces of eight characters. -/
theorem reads_iff {s : String} {year : Int} {month day : Nat} :
    Reads s year month day ↔
      s.toList.length = 8 ∧ SignedText (s.toList.take 4) year ∧
        UnsignedText ((s.toList.drop 4).take 2) month ∧
          UnsignedText ((s.toList.drop 6).take 2) day := by
  constructor
  · rintro ⟨y, m, d, hs, ⟨hylen, hmlen, hdlen⟩, hpieces⟩
    have hyear : s.toList.take 4 = y := by
      rw [hs, List.append_assoc, List.take_left' hylen]
    have hmonth : (s.toList.drop 4).take 2 = m := by
      rw [hs, List.append_assoc, List.drop_left' hylen, List.take_left' hmlen]
    have hday : (s.toList.drop 6).take 2 = d := by
      rw [hs, List.drop_left' (by rw [List.length_append, hylen, hmlen]),
        List.take_of_length_le hdlen.le]
    rw [hyear, hmonth, hday]
    exact ⟨by rw [hs, List.length_append, List.length_append, hylen, hmlen, hdlen], hpieces⟩
  · rintro ⟨hlen, hpieces⟩
    refine ⟨_, _, _, ?_, ⟨?_, ?_, ?_⟩, hpieces⟩
    · have hday : (s.toList.drop 6).take 2 = (s.toList.drop 4).drop 2 := by
        rw [List.drop_drop, List.take_of_length_le (by rw [List.length_drop, hlen])]
      rw [hday, List.append_assoc, List.take_append_drop, List.take_append_drop]
    · rw [List.length_take, hlen]
      rfl
    · rw [List.length_take, List.length_drop, hlen]
      rfl
    · rw [List.length_take, List.length_drop, hlen]
      rfl

/-- Digits read as one date only, the one they name. -/
theorem reads_iff_of_digits {s : String} (hdigits : Digits s) {year : Int} {month day : Nat} :
    Reads s year month day ↔
      s.toList.length = 8 ∧ (⟨year, month, day⟩ : Date) = namedDate s.toList := by
  have hyear : ∀ c ∈ s.toList.take 4, c.isDigit := fun c hc =>
    hdigits c (List.mem_of_mem_take hc)
  have hpart (start : Nat) : ∀ c ∈ (s.toList.drop start).take 2, c.isDigit := fun c hc =>
    hdigits c (List.mem_of_mem_drop (List.mem_of_mem_take hc))
  rw [reads_iff, signedText_of_digits hyear, unsignedText_of_digits (hpart 4),
    unsignedText_of_digits (hpart 6)]
  constructor
  · rintro ⟨hlen, ⟨-, rfl⟩, ⟨-, rfl⟩, -, rfl⟩
    exact ⟨hlen, rfl⟩
  · rintro ⟨hlen, hdate⟩
    have hne (start len : Nat) (hstart : start < 8) (hlen' : 0 < len) :
        (s.toList.drop start).take len ≠ [] := by
      rw [← List.length_pos_iff, List.length_take, List.length_drop]
      omega
    obtain ⟨rfl, rfl, rfl⟩ := Date.mk.inj hdate
    exact ⟨hlen, ⟨hne 0 4 (by decide) (by decide), rfl⟩, ⟨hne 4 2 (by decide) (by decide), rfl⟩,
      hne 6 2 (by decide) (by decide), rfl⟩

/-- In eight bytes, pieces that are numbers are eight characters. -/
theorem length_of_pieces {s : String} (hsize : s.utf8ByteSize = 8) {year : Int} {month day : Nat}
    (hy : SignedText (s.toList.take 4) year) (hm : UnsignedText ((s.toList.drop 4).take 2) month)
    (hd : UnsignedText ((s.toList.drop 6).take 2) day) : s.toList.length = 8 := by
  have hle := length_le_bytes s.toList
  rw [← utf8ByteSize_eq, hsize] at hle
  have hlast : (s.toList.drop 6).take 2 = (s.toList.drop 4).drop 2 := by
    rw [List.drop_drop, List.take_of_length_le (by rw [List.length_drop]; omega)]
  have hsplit : s.toList =
      s.toList.take 4 ++ ((s.toList.drop 4).take 2 ++ (s.toList.drop 6).take 2) := by
    rw [hlast, List.take_append_drop, List.take_append_drop]
  have hbytes : bytes s.toList = s.toList.length := by
    rw [hsplit, bytes_append, bytes_append, bytes_of_signedText hy, bytes_of_unsignedText hm,
      bytes_of_unsignedText hd, ← List.length_append, ← List.length_append]
  rw [← hbytes, ← utf8ByteSize_eq, hsize]

theorem parseExpiry_by_characters {s : String} {t : Int} :
    TimeToExpiry.parseExpiry s = some t ↔
      ∃ year month day, Reads s year month day ∧ DateValid ⟨year, month, day⟩ ∧
        t = atHour ⟨year, month, day⟩ 21 := by
  have hyear {n : Int} : parseSigned (-2147483648) 2147483647 (piece s 0 4) = .ok n ↔
      SignedText (s.toList.take 4) n := parseYear_iff (List.length_take_le 4 s.toList)
  have hpart (start : Nat) {n : Int} : parseUnsigned 4294967295 (piece s start 2) = .ok n ↔
      ∃ k : Nat, UnsignedText ((s.toList.drop start).take 2) k ∧ n = k :=
    parsePart_iff (List.length_take_le 2 _)
  unfold TimeToExpiry.parseExpiry
  constructor
  · intro h
    split at h
    · cases h
    · rename_i hsize
      split at h
      · rename_i year month day hy hm hd
        obtain ⟨k, hk, rfl⟩ := (hpart 4).mp hm
        obtain ⟨l, hl, rfl⟩ := (hpart 6).mp hd
        have hy := hyear.mp hy
        have hlen := length_of_pieces (not_not.mp hsize) hy hk hl
        exact ⟨year, k, l, reads_iff.mpr ⟨hlen, hy, hk, hl⟩, withYmdHour_eq_some_iff.mp h⟩
      · cases h
  · rintro ⟨year, month, day, hreads, hdate⟩
    have hsize : s.utf8ByteSize = 8 := by
      by_contra hsize
      have h := parseExpiry_eq_value_iff.mpr ⟨year, month, day, hreads, hdate⟩
      rw [parseExpiry_of_size_ne hsize] at h
      cases h
    obtain ⟨-, hy, hm, hd⟩ := reads_iff.mp hreads
    rw [if_neg (not_not_intro hsize), hyear.mpr hy, (hpart 4).mpr ⟨month, hm, rfl⟩,
      (hpart 6).mpr ⟨day, hd, rfl⟩]
    exact withYmdHour_eq_some_iff.mpr hdate

/-- **Where no cut panics**, the date is the one that pieces of characters give. -/
theorem parseExpiry_eq {s : String} (htorn : ¬Torn s) :
    parseExpiry s = ofOption (TimeToExpiry.parseExpiry s) := by
  rcases parseExpiry_torn_or_returned s with ⟨h, -⟩ | ⟨-, o, hreturned⟩
  · exact absurd h htorn
  · rw [hreturned]
    congr 1
    ext t
    rw [parseExpiry_by_characters, ← parseExpiry_eq_value_iff, hreturned, ofOption_eq_value]

/-- **When the documentation is right.** -/
theorem grammar_iff (s : String) : Documented s ↔ ¬Torn s ∧ ¬SignedDate s := by
  constructor
  · intro hdoc
    refine ⟨fun htorn => ?_, ?_⟩
    · have hpanic := (parseExpiry_panics_iff s).mpr htorn
      by_cases hnames : NamesDate s
      · cases hpanic.symm.trans (hdoc.dated hnames)
      · cases hpanic.symm.trans (hdoc.malformed hnames)
    · rintro ⟨hsign, year, month, day, hreads, hvalid⟩
      have htaken := parseExpiry_eq_value_iff.mpr ⟨year, month, day, hreads, hvalid, rfl⟩
      cases htaken.symm.trans (hdoc.malformed fun hnames => hsign hnames.2.1)
  · rintro ⟨htorn, hsign⟩
    constructor
    · rintro ⟨hlen, hdigits, hvalid⟩
      exact parseExpiry_eq_value_iff.mpr
        ⟨_, _, _, (reads_iff_of_digits hdigits).mpr ⟨hlen, rfl⟩, hvalid, rfl⟩
    · intro hnames
      rcases parseExpiry_torn_or_returned s with ⟨h, -⟩ | ⟨-, o, hreturned⟩
      · exact absurd h htorn
      · cases o with
        | none => exact hreturned
        | some t =>
            obtain ⟨year, month, day, hreads, hvalid, -⟩ := parseExpiry_eq_value_iff.mp hreturned
            by_cases hdigits : Digits s
            · obtain ⟨hlen, hdate⟩ := (reads_iff_of_digits hdigits).mp hreads
              exact absurd ⟨hlen, hdigits, hdate ▸ hvalid⟩ hnames
            · exact absurd ⟨hdigits, year, month, day, hreads, hvalid⟩ hsign

/-- Seven characters, eight bytes: the fourth falls within one.  And a plus where a digit should
be. -/
theorem euro_panics_and_plus_taken :
    ¬(∀ s, Documented s) ∧ parseExpiry "202€26" = .outOfRange ∧
      parseExpiry "2026+5+6" = .value (atHour ⟨2026, 5, 6⟩ 21) := by
  have hpanic : parseExpiry "202€26" = .outOfRange := by decide +kernel
  refine ⟨fun h => ?_, hpanic, by decide +kernel⟩
  have hnothing := (h "202€26").malformed fun hnames => by
    have hlen : "202€26".toList.length ≠ 8 := by decide
    exact hlen hnames.1
  cases hpanic.symm.trans hnothing

end Corsair.Ports.ExpiryGrammar
