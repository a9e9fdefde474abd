import Corsair.Ports.VolFit
import Corsair.Ports.RestingSweep

/-!
# Time to expiry, as four places compute it

The broker fits the surfaces with one conversion from an expiry to a year fraction
(`vol_surface`), the portfolio refreshes the greeks with another
(`portfolio::time_to_expiry_years`), the fill log prices the theo with a third (`ipc`),
and the trader, which prices from the fitted surface, has its own (`tte_cache`).  They
differ in the hour of the settlement and in the length of the year.

The trader is given the expiry as text and keeps the instants that it has parsed.  The
cache carries the fact that it holds nothing else, so what it answers does not depend on
what it was asked before (`timeToExpiryYears_eq`).

## Main results

* `parseExpiry_formatYmd` — the trader reads back the date that the broker wrote.
* `fitTte_lt_traderTte`, `portfolioTte_lt_traderTte`, `portfolioTte_lt_fitTte` — the order
  of the three fractions.
* `fillTte_eq_traderTte` — the one pair that agrees.
* `tte_never_agree` — the fractions agree for no date and no instant.
-/

namespace Corsair.Ports.TimeToExpiry

open Corsair.Verified
open Corsair.Ports.Portfolio
open Corsair.Ports.NativeDecoder
open Corsair.Ports.RestingSweep
open Corsair.Ports.Fills
open Corsair.Ports.QuoteBook
open Corsair.Ports.VolFit

/-! ## Dates -/

def isLeapYear (year : Int) : Bool :=
  year % 4 = 0 && (year % 100 ≠ 0 || year % 400 = 0)

def daysInMonth (year : Int) (month : Nat) : Nat :=
  match month with
  | 2 => if isLeapYear year then 29 else 28
  | 4 | 6 | 9 | 11 => 30
  | _ => 31

/-- The dates that `chrono` can represent. -/
structure DateValid (d : Date) : Prop where
  year : -262143 ≤ d.year ∧ d.year ≤ 262142
  month : 1 ≤ d.month ∧ d.month ≤ 12
  day : 1 ≤ d.day ∧ d.day ≤ daysInMonth d.year d.month

instance (d : Date) : Decidable (DateValid d) :=
  decidable_of_iff
    ((-262143 ≤ d.year ∧ d.year ≤ 262142) ∧ (1 ≤ d.month ∧ d.month ≤ 12) ∧
      (1 ≤ d.day ∧ d.day ≤ daysInMonth d.year d.month))
    ⟨fun h => ⟨h.1, h.2.1, h.2.2⟩, fun h => ⟨h.year, h.month, h.day⟩⟩

/-- `NaiveDate`: a date that exists. -/
structure NaiveDate where
  date : Date
  valid : DateValid date

theorem daysInMonth_le (year : Int) (month : Nat) : daysInMonth year month ≤ 31 := by
  unfold daysInMonth
  split
  · split <;> omega
  · omega
  · omega
  · omega
  · omega
  · omega

/-- The instant of a full hour of a day, in nanoseconds since the epoch. -/
def atHour (d : Date) (hour : Int) : Int :=
  (daysFromCivil d * 86400 + hour * 3600) * 1000000000

/-- `num_seconds` of the time from now to an instant: towards zero. -/
def numSeconds (instant nowNs : Int) : Int :=
  (instant - nowNs).tdiv 1000000000

theorem lt_of_numSeconds_pos {instant nowNs : Int} (h : 0 < numSeconds instant nowNs) :
    nowNs < instant := by
  by_contra hpast
  have hneg := Int.neg_tdiv (instant - nowNs) 1000000000
  have hnonneg : 0 ≤ (-(instant - nowNs)).tdiv 1000000000 :=
    Int.tdiv_nonneg (by omega) (by omega)
  unfold numSeconds at h
  omega

/-- A later hour is later by whole seconds. -/
theorem numSeconds_atHour_add (d : Date) (hour : Int) {later nowNs : Int} (hlater : 0 ≤ later)
    (hpos : 0 < numSeconds (atHour d hour) nowNs) :
    numSeconds (atHour d (hour + later)) nowNs =
      numSeconds (atHour d hour) nowNs + later * 3600 := by
  have hlt := lt_of_numSeconds_pos hpos
  have hsum : atHour d (hour + later) - nowNs =
      atHour d hour - nowNs + later * 3600 * 1000000000 := by
    unfold atHour
    ring
  unfold numSeconds
  rw [Int.tdiv_eq_ediv_of_nonneg (by omega), Int.tdiv_eq_ediv_of_nonneg (by omega), hsum,
    Int.add_mul_ediv_right _ _ (by omega)]

/-! ## The four conversions -/

variable {F : Type} [F64 F]

/-- `365.25 * 24.0 * 3600.0`. -/
def julianYear : F := F64.lit 36525 2 * F64.lit 24 0 * F64.lit 3600 0

/-- `SECS_PER_YEAR`: `365.0 * 24.0 * 3600.0`. -/
def secsPerYear : F := F64.lit 365 0 * F64.lit 24 0 * F64.lit 3600 0

/-- `tte` in the fit of the surfaces: no point where the expiry has passed. -/
def fitTte (expiry : NaiveDate) (nowNs : Int) : Option F :=
  let secs : F := F64.ofInt (numSeconds (atHour expiry.date 20) nowNs)
  if F64.le secs F64.zero then none else some (secs / julianYear)

/-- A point of a surface stands at that time. -/
theorem tte_of_point {env : FitEnv F} {forward : F} {opt : OptionTick F} {q : LegQuote F}
    {p : FitPoint F} (expiry : NaiveDate) (hexpiry : opt.expiry = expiry.date)
    (h : point env forward (opt, q) = some p) : fitTte expiry env.nowNs = some p.tte := by
  have hsecs : secsToExpiry opt.expiry env.nowNs = numSeconds (atHour expiry.date 20) env.nowNs :=
    by rw [hexpiry]; rfl
  unfold point at h
  simp only [hsecs] at h
  unfold fitTte julianYear
  grind

/-- `portfolio::time_to_expiry_years`. -/
def portfolioTte (expiry : NaiveDate) (nowNs : Int) : F :=
  let secs : F := F64.ofInt (numSeconds (atHour expiry.date 18) nowNs)
  if F64.le secs F64.zero then F64.zero else secs / julianYear

/-- `tte` of the theo beside a fill: the time of the fit where the expiry has passed. -/
def fillTte (expiry : NaiveDate) (nowNs : Int) (fitted : F) : F :=
  let secs : F := F64.ofInt (numSeconds (atHour expiry.date 21) nowNs)
  if F64.gt secs F64.zero then secs / secsPerYear else fitted

/-- `str::parse` into an unsigned integer up to `hi`. -/
def parseUnsigned (hi : Int) (s : String) : Except String Int :=
  match s.toList with
  | [] => .error emptyInteger
  | ['+'] => .error invalidDigit
  | ['-'] => .error invalidDigit
  | '+' :: digits => parseUp hi 0 digits
  | digits => parseUp hi 0 digits

/-- `with_ymd_and_hms`, on the hour. -/
def withYmdHour (year month day hour : Int) : Option Int :=
  let d : Date := { year, month := month.toNat, day := day.toNat }
  if DateValid d then some (atHour d hour) else none

/-- A piece of a text. -/
def piece (s : String) (start len : Nat) : String :=
  String.ofList ((s.toList.drop start).take len)

/-- `parse_expiry`.  The source cuts the text by bytes: where it has a longer character, a
piece is not a number and the result `none`, as here, or the cut falls within the character
and the source panics. -/
def parseExpiry (expiry : String) : Option Int :=
  if expiry.utf8ByteSize ≠ 8 then none
  else
    match parseSigned (-2147483648) 2147483647 (piece expiry 0 4),
      parseUnsigned 4294967295 (piece expiry 4 2),
      parseUnsigned 4294967295 (piece expiry 6 2) with
    | .ok year, .ok month, .ok day => withYmdHour year month day 21
    | _, _, _ => none

/-- `EXPIRY_DT_CACHE`: the instants of texts that parse. -/
structure ExpiryCache where
  entries : AList (fun _ : String => Int)
  parsed : ∀ expiry instant, entries.lookup expiry = some instant →
    parseExpiry expiry = some instant

def ExpiryCache.empty : ExpiryCache where
  entries := ∅
  parsed _ _ h := by simp at h

def ExpiryCache.insert (cache : ExpiryCache) {expiry : String} {instant : Int}
    (h : parseExpiry expiry = some instant) : ExpiryCache where
  entries := cache.entries.insert expiry instant
  parsed other found hlookup := by
    by_cases heq : other = expiry
    · subst heq
      rw [AList.lookup_insert] at hlookup
      rw [h, hlookup]
    · rw [AList.lookup_insert_ne heq] at hlookup
      exact cache.parsed other found hlookup

/-- `MAX_CACHE_ENTRIES`. -/
def maxCacheEntries : Nat := 32

/-- The years until an instant; negative after it. -/
def yearsUntil (nowNs instant : Int) : F :=
  F64.ofInt (numSeconds instant nowNs) / secsPerYear

/-- `tte_cache::time_to_expiry_years`. -/
def timeToExpiryYears (cache : ExpiryCache) (expiry : String) (nowNs : Int) :
    ExpiryCache × Option F :=
  match cache.entries.lookup expiry with
  | some instant => (cache, some (yearsUntil nowNs instant))
  | none =>
      let cache := if maxCacheEntries ≤ cache.entries.entries.length then .empty else cache
      match h : parseExpiry expiry with
      | some instant => (cache.insert h, some (yearsUntil nowNs instant))
      | none => (cache, none)

/-- What the trader answers does not depend on its cache. -/
theorem timeToExpiryYears_eq (cache : ExpiryCache) (expiry : String) (nowNs : Int) :
    (timeToExpiryYears cache expiry nowNs : ExpiryCache × Option F).2 =
      (parseExpiry expiry).map (yearsUntil nowNs) := by
  unfold timeToExpiryYears
  cases hlookup : cache.entries.lookup expiry with
  | some instant => exact congrArg (Option.map _) (cache.parsed expiry instant hlookup).symm
  | none =>
      dsimp only
      split
      · next instant h => exact congrArg (Option.map _) h.symm
      · next h => exact congrArg (Option.map _) h.symm

/-- `%Y`: a year outside four digits is written with its sign. -/
def yearText (year : Int) : String :=
  if 0 ≤ year ∧ year ≤ 9999 then padded 4 year.toNat
  else (if year < 0 then "-" else "+") ++ padded 4 year.natAbs

/-- `format("%Y%m%d")`. -/
def formatYmd (expiry : NaiveDate) : String :=
  yearText expiry.date.year ++ padded 2 expiry.date.month ++ padded 2 expiry.date.day

/-! ## The text of a date -/

/-- The text has decimal digits only. -/
def Digits (s : String) : Prop := ∀ c ∈ s.toList, c.isDigit

theorem toList_padded (width n : Nat) :
    (padded width n).toList =
      List.replicate (width - (Nat.toDigits 10 n).length) '0' ++ Nat.toDigits 10 n := by
  simp [padded, ← String.length_toList]

theorem digits_padded (width n : Nat) : Digits (padded width n) := by
  intro c hc
  rw [toList_padded, List.mem_append] at hc
  cases hc with
  | inl hzero =>
      rw [List.eq_of_mem_replicate hzero]
      decide
  | inr hdigit => exact Nat.isDigit_of_mem_toDigits (by decide) (by decide) hdigit

theorem le_length_padded (width n : Nat) : width ≤ (padded width n).toList.length := by
  rw [toList_padded, List.length_append, List.length_replicate]
  omega

theorem length_padded {width n : Nat} (hwidth : 0 < width) (h : n < 10 ^ width) :
    (padded width n).toList.length = width := by
  have hlen := (Nat.length_toDigits_le_iff (b := 10) (by decide) hwidth).mpr h
  rw [toList_padded, List.length_append, List.length_replicate]
  omega

theorem ofDigitChars_padded (width n : Nat) :
    Nat.ofDigitChars 10 (padded width n).toList 0 = n := by
  rw [toList_padded, Nat.ofDigitChars_append, Nat.ofDigitChars_replicate_zero, Nat.mul_zero,
    Nat.ofDigitChars_ten_toDigits]

theorem isDigit_iff {c : Char} : c.isDigit ↔ '0' ≤ c ∧ c ≤ '9' := by
  simp [Char.isDigit, Char.le_def]

theorem digitValue_of_isDigit {c : Char} (h : c.isDigit) :
    digitValue c = some ((c.toNat - '0'.toNat : Nat) : Int) := by
  unfold digitValue
  rw [if_pos (isDigit_iff.mp h)]

theorem parseUp_of_digits {digits : List Char} (hdigits : ∀ c ∈ digits, c.isDigit) {hi : Int}
    (acc : Nat) (hle : (Nat.ofDigitChars 10 digits acc : Int) ≤ hi) :
    parseUp hi acc digits = .ok (Nat.ofDigitChars 10 digits acc : Nat) := by
  induction digits generalizing acc with
  | nil => rfl
  | cons c rest ih =>
      have hdigit := digitValue_of_isDigit (hdigits c (by simp))
      rw [Nat.ofDigitChars_cons] at hle ⊢
      have hgrow : 10 * acc + (c.toNat - '0'.toNat) ≤
          Nat.ofDigitChars 10 rest (10 * acc + (c.toNat - '0'.toNat)) := by
        rw [Nat.ofDigitChars_eq_ofDigitChars_zero]
        exact (Nat.le_mul_of_pos_left _ (by positivity)).trans (Nat.le_add_right _ _)
      have hcast : (acc : Int) * 10 + (c.toNat - '0'.toNat : Nat) =
          (10 * acc + (c.toNat - '0'.toNat) : Nat) := by
        push_cast
        ring
      unfold parseUp
      simp only [hdigit]
      rw [hcast, if_neg (by omega)]
      exact ih (fun c hc => hdigits c (by simp [hc])) _ hle

theorem utf8ByteSize_of_digits {s : String} (h : Digits s) :
    s.utf8ByteSize = s.toList.length := by
  have hlist : ∀ l : List Char, (∀ c ∈ l, c.isDigit) →
      (String.ofList l).utf8ByteSize = l.length := by
    intro l hl
    induction l with
    | nil => rfl
    | cons c rest ih =>
        have hsize : c.utf8Size = 1 := by
          have hle := (isDigit_iff.mp (hl c (by simp))).2
          exact Char.utf8Size_eq_one_iff.mpr (UInt32.le_trans hle (by decide))
        rw [String.ofList_cons, String.utf8ByteSize_append, String.utf8ByteSize_singleton, hsize,
          ih fun c hc => hl c (by simp [hc]), List.length_cons, Nat.add_comm]
  have hs := hlist s.toList h
  rwa [String.ofList_toList] at hs

theorem parseUp_padded (width : Nat) {n : Nat} {hi : Int} (hle : (n : Int) ≤ hi) :
    parseUp hi 0 (padded width n).toList = .ok n := by
  have hvalue := ofDigitChars_padded width n
  have hup := parseUp_of_digits (digits_padded width n) 0 (hvalue.symm ▸ hle)
  rwa [hvalue] at hup

/-- The text of a padded number has no sign. -/
theorem exists_digit_padded {width : Nat} (hwidth : 0 < width) (n : Nat) :
    ∃ c rest, (padded width n).toList = c :: rest ∧ c ≠ '+' ∧ c ≠ '-' := by
  have hlen := le_length_padded width n
  obtain ⟨c, rest, hlist⟩ := List.exists_cons_of_length_pos (hwidth.trans_le hlen)
  have hdigit := digits_padded width n c (by simp [hlist])
  refine ⟨c, rest, hlist, ?_, ?_⟩
  · rintro rfl
    cases hdigit
  · rintro rfl
    cases hdigit

/-- A padded number is read back, as a year … -/
theorem parseSigned_padded {width n : Nat} (hwidth : 0 < width) {lo hi : Int}
    (hle : (n : Int) ≤ hi) : parseSigned lo hi (padded width n) = .ok n := by
  have hup := parseUp_padded width hle
  obtain ⟨c, rest, hlist, hplus, hminus⟩ := exists_digit_padded hwidth n
  rw [hlist] at hup
  simp only [parseSigned, hlist]
  split
  · next h => cases h
  · next h => exact absurd (List.cons.inj h).1 hplus
  · next h => exact absurd (List.cons.inj h).1 hminus
  · next h => exact absurd (List.cons.inj h).1 hplus
  · next h => exact absurd (List.cons.inj h).1 hminus
  · exact hup

/-- … and as a month or a day. -/
theorem parseUnsigned_padded {width n : Nat} (hwidth : 0 < width) {hi : Int}
    (hle : (n : Int) ≤ hi) : parseUnsigned hi (padded width n) = .ok n := by
  have hup := parseUp_padded width hle
  obtain ⟨c, rest, hlist, hplus, hminus⟩ := exists_digit_padded hwidth n
  rw [hlist] at hup
  simp only [parseUnsigned, hlist]
  split
  · next h => cases h
  · next h => exact absurd (List.cons.inj h).1 hplus
  · next h => exact absurd (List.cons.inj h).1 hminus
  · next h => exact absurd (List.cons.inj h).1 hplus
  · exact hup

theorem piece_append (before mid after : String) :
    piece (before ++ mid ++ after) before.toList.length mid.toList.length = mid := by
  unfold piece
  rw [String.toList_append, String.toList_append, List.append_assoc, List.drop_left,
    List.take_left, String.ofList_toList]

theorem withYmdHour_of_valid {d : Date} (h : DateValid d) (hyear : 0 ≤ d.year) (hour : Int) :
    withYmdHour d.year.toNat d.month d.day hour = some (atHour d hour) := by
  have hd : (Date.mk d.year.toNat (d.month : Int).toNat (d.day : Int).toNat) = d := by
    rw [Int.toNat_of_nonneg hyear, Int.toNat_natCast, Int.toNat_natCast]
  unfold withYmdHour
  dsimp only
  rw [hd, if_pos h]

/-- A text of three padded numbers that fit their widths is parsed as them. -/
theorem parseExpiry_of_padded {year month day : Nat} (hyear : year < 10 ^ 4)
    (hmonth : month < 10 ^ 2) (hday : day < 10 ^ 2) :
    parseExpiry (padded 4 year ++ padded 2 month ++ padded 2 day) =
      withYmdHour year month day 21 := by
  have hyearLen := length_padded (by decide) hyear
  have hmonthLen := length_padded (by decide) hmonth
  have hdayLen := length_padded (by decide) hday
  have hfirst := piece_append "" (padded 4 year) (padded 2 month ++ padded 2 day)
  have hsecond := piece_append (padded 4 year) (padded 2 month) (padded 2 day)
  have hthird := piece_append (padded 4 year ++ padded 2 month) (padded 2 day) ""
  rw [String.empty_append, ← String.append_assoc, hyearLen] at hfirst
  rw [hyearLen, hmonthLen] at hsecond
  rw [String.append_empty, String.toList_append, List.length_append, hyearLen, hmonthLen,
    hdayLen] at hthird
  have hsize : (padded 4 year ++ padded 2 month ++ padded 2 day).utf8ByteSize = 8 := by
    rw [String.utf8ByteSize_append, String.utf8ByteSize_append,
      utf8ByteSize_of_digits (digits_padded 4 year),
      utf8ByteSize_of_digits (digits_padded 2 month),
      utf8ByteSize_of_digits (digits_padded 2 day), hyearLen, hmonthLen, hdayLen]
  unfold parseExpiry
  rw [if_neg (not_not_intro hsize), show piece _ 0 4 = _ from hfirst,
    show piece _ 4 2 = _ from hsecond, show piece _ 6 2 = _ from hthird,
    parseSigned_padded (by decide) (by omega), parseUnsigned_padded (by decide) (by omega),
    parseUnsigned_padded (by decide) (by omega)]

/-- A year with a sign makes the text too long. -/
theorem parseExpiry_of_signed (expiry : NaiveDate)
    (hyear : ¬ (0 ≤ expiry.date.year ∧ expiry.date.year ≤ 9999)) :
    parseExpiry (formatYmd expiry) = none := by
  have hyearLen := le_length_padded 4 expiry.date.year.natAbs
  have hmonthLen := le_length_padded 2 expiry.date.month
  have hdayLen := le_length_padded 2 expiry.date.day
  have hsign : (if expiry.date.year < 0 then "-" else "+").utf8ByteSize = 1 := by
    split
    · rfl
    · rfl
  have hsize : (formatYmd expiry).utf8ByteSize ≠ 8 := by
    unfold formatYmd yearText
    rw [if_neg hyear, String.utf8ByteSize_append, String.utf8ByteSize_append,
      String.utf8ByteSize_append, hsign, utf8ByteSize_of_digits (digits_padded 4 _),
      utf8ByteSize_of_digits (digits_padded 2 _), utf8ByteSize_of_digits (digits_padded 2 _)]
    omega
  unfold parseExpiry
  rw [if_pos hsize]

/-- **The text of an expiry is read back as the expiry**, at 21:00 UTC; a year that does
not fit four digits is refused. -/
theorem parseExpiry_formatYmd (expiry : NaiveDate) :
    parseExpiry (formatYmd expiry) =
      if 0 ≤ expiry.date.year ∧ expiry.date.year ≤ 9999 then some (atHour expiry.date 21)
      else none := by
  by_cases hyear : 0 ≤ expiry.date.year ∧ expiry.date.year ≤ 9999
  · have hmonth := expiry.valid.month
    have hday := expiry.valid.day
    have hdays := daysInMonth_le expiry.date.year expiry.date.month
    rw [if_pos hyear, ← withYmdHour_of_valid expiry.valid hyear.1 21,
      ← parseExpiry_of_padded (by omega) (by omega) (by omega), formatYmd, yearText,
      if_pos hyear]
  · rw [if_neg hyear]
    exact parseExpiry_of_signed expiry hyear

/-! ## Which fraction is the larger -/

/-- What the trader computes for an expiry of the broker. -/
def traderTte (cache : ExpiryCache) (expiry : NaiveDate) (nowNs : Int) : Option F :=
  (timeToExpiryYears cache (formatYmd expiry) nowNs).2

theorem traderTte_eq (cache : ExpiryCache) (expiry : NaiveDate) (nowNs : Int) :
    (traderTte cache expiry nowNs : Option F) =
      if 0 ≤ expiry.date.year ∧ expiry.date.year ≤ 9999 then
        some (yearsUntil nowNs (atHour expiry.date 21))
      else none := by
  unfold traderTte
  rw [timeToExpiryYears_eq, parseExpiry_formatYmd]
  split
  · rfl
  · rfl

theorem julianYear_rat : (julianYear : ℚ) = 31557600 := by decide +kernel

theorem secsPerYear_rat : (secsPerYear : ℚ) = 31536000 := by decide +kernel

section Order

variable {cache : ExpiryCache} {expiry : NaiveDate} {nowNs : Int} {years later : ℚ}

theorem eq_of_traderTte (h : traderTte cache expiry nowNs = some later) :
    later = numSeconds (atHour expiry.date 21) nowNs / 31536000 := by
  rw [traderTte_eq] at h
  split at h
  · rw [← Option.some.inj h, yearsUntil, secsPerYear_rat]
    rfl
  · cases h

theorem eq_of_fitTte (h : fitTte expiry nowNs = some years) :
    0 < numSeconds (atHour expiry.date 20) nowNs ∧
      years = numSeconds (atHour expiry.date 20) nowNs / 31557600 := by
  simp only [fitTte, rat_ofInt, rat_zero, julianYear_rat] at h
  split at h
  · cases h
  · next hpos =>
    have hlt : (0 : ℚ) < numSeconds (atHour expiry.date 20) nowNs :=
      not_le.mp (fun hle => hpos (decide_eq_true hle))
    exact ⟨by exact_mod_cast hlt, (Option.some.inj h).symm⟩

theorem portfolioTte_eq (expiry : NaiveDate) (nowNs : Int) :
    (portfolioTte expiry nowNs : ℚ) =
      max 0 (numSeconds (atHour expiry.date 18) nowNs : ℚ) / 31557600 := by
  simp only [portfolioTte, rat_ofInt, rat_zero, julianYear_rat]
  split
  · next hle =>
    rw [max_eq_left (of_decide_eq_true hle), zero_div]
  · next hpos =>
    rw [max_eq_right (le_of_lt (not_le.mp fun hle => hpos (decide_eq_true hle)))]

/-- The clamped hour of the portfolio is before every later one. -/
theorem max_numSeconds_lt (expiry : NaiveDate) {hours nowNs : Int} (hlater : 0 < hours)
    (hpos : 0 < numSeconds (atHour expiry.date (18 + hours)) nowNs) :
    max 0 (numSeconds (atHour expiry.date 18) nowNs) <
      numSeconds (atHour expiry.date (18 + hours)) nowNs := by
  apply max_lt hpos
  by_cases hbefore : 0 < numSeconds (atHour expiry.date 18) nowNs
  · have hsum := numSeconds_atHour_add expiry.date 18 hlater.le hbefore
    omega
  · omega

/-- The trader sees more time than the fit. -/
theorem fitTte_lt_traderTte (hfit : fitTte expiry nowNs = some years)
    (htrader : traderTte cache expiry nowNs = some later) : years < later := by
  obtain ⟨hpos, hyears⟩ := eq_of_fitTte hfit
  have hsum := numSeconds_atHour_add expiry.date 20 (show (0 : Int) ≤ 1 by decide) hpos
  have hlater := eq_of_traderTte htrader
  have hsecs : (0 : ℚ) < numSeconds (atHour expiry.date 20) nowNs := by exact_mod_cast hpos
  rw [show (21 : Int) = 20 + 1 from rfl, hsum] at hlater
  push_cast at hlater
  rw [hyears, hlater, div_lt_div_iff₀ (by norm_num) (by norm_num)]
  linarith

/-- The fit sees more time than the portfolio. -/
theorem portfolioTte_lt_fitTte (hfit : fitTte expiry nowNs = some years) :
    portfolioTte expiry nowNs < years := by
  obtain ⟨hpos, hyears⟩ := eq_of_fitTte hfit
  have hlt := max_numSeconds_lt expiry (show (0 : Int) < 2 by decide) hpos
  rw [hyears, portfolioTte_eq]
  apply div_lt_div_of_pos_right _ (by norm_num)
  exact_mod_cast hlt

/-- Before the trader's settlement the portfolio sees less time than the trader. -/
theorem portfolioTte_lt_traderTte (htrader : traderTte cache expiry nowNs = some later)
    (hpos : 0 < later) : portfolioTte expiry nowNs < later := by
  have hlater := eq_of_traderTte htrader
  have hsecs : 0 < numSeconds (atHour expiry.date 21) nowNs := by
    by_contra hle
    have hle' : (numSeconds (atHour expiry.date 21) nowNs : ℚ) ≤ 0 := by
      exact_mod_cast not_lt.mp hle
    rw [hlater] at hpos
    linarith
  have hlt := max_numSeconds_lt expiry (show (0 : Int) < 3 by decide) hsecs
  have hlt' : max 0 (numSeconds (atHour expiry.date 18) nowNs : ℚ) <
      numSeconds (atHour expiry.date 21) nowNs := by exact_mod_cast hlt
  have hnonneg := le_max_left 0 (numSeconds (atHour expiry.date 18) nowNs : ℚ)
  rw [hlater, portfolioTte_eq, div_lt_div_iff₀ (by norm_num) (by norm_num)]
  linarith

/-- The theo beside a fill is priced at the trader's time. -/
theorem fillTte_eq_traderTte (htrader : traderTte cache expiry nowNs = some later)
    (hpos : 0 < later) (fitted : ℚ) : fillTte expiry nowNs fitted = later := by
  have hlater := eq_of_traderTte htrader
  have hsecs : (0 : ℚ) < numSeconds (atHour expiry.date 21) nowNs := by
    rw [hlater] at hpos
    linarith
  have hafter : F64.gt (F64.ofInt (numSeconds (atHour expiry.date 21) nowNs) : ℚ) F64.zero =
      true := by
    rw [rat_zero]
    exact decide_eq_true hsecs
  simp only [fillTte, if_pos hafter]
  rw [rat_ofInt, secsPerYear_rat, hlater]

end Order

/-- The broker fits and computes its greeks with one year fraction, and the trader prices
with it. -/
def TteAgree (cache : ExpiryCache) (expiry : NaiveDate) (nowNs : Int) (fitted : ℚ) : Prop :=
  ∃ years : ℚ, fitTte expiry nowNs = some years ∧ traderTte cache expiry nowNs = some years ∧
    portfolioTte expiry nowNs = years ∧ fillTte expiry nowNs fitted = years

/-- **The year fractions never agree**, for no expiry and at no instant, before it or
after. -/
theorem tte_never_agree (cache : ExpiryCache) (expiry : NaiveDate) (nowNs : Int) (fitted : ℚ) :
    ¬ TteAgree cache expiry nowNs fitted := by
  rintro ⟨years, hfit, htrader, -, -⟩
  exact lt_irrefl years (fitTte_lt_traderTte hfit htrader)

/-- The expiry of June 2026. -/
def june26 : NaiveDate where
  date := { year := 2026, month := 6, day := 25 }
  valid := by decide

/-- An hour before the portfolio's settlement: three hours of 365.25 days for the fit, four
hours of 365 days for the trader, one hour for the portfolio. -/
theorem tte_on_last_day :
    let now : Int := 1782406800000000000
    fitTte june26 now = some (10800 / 31557600 : ℚ) ∧
      traderTte .empty june26 now = some (14400 / 31536000 : ℚ) ∧
      portfolioTte june26 now = (3600 / 31557600 : ℚ) ∧
      ∀ fitted, ¬ TteAgree .empty june26 now fitted := by
  intro now
  have hfit : fitTte june26 now = some (10800 / 31557600 : ℚ) := by decide +kernel
  have htrader : traderTte .empty june26 now = some (14400 / 31536000 : ℚ) := by decide +kernel
  have hportfolio : portfolioTte june26 now = (3600 / 31557600 : ℚ) := by decide +kernel
  refine ⟨hfit, htrader, hportfolio, ?_⟩
  rintro fitted ⟨years, hfit', htrader', -⟩
  rw [hfit] at hfit'
  rw [htrader, ← hfit'] at htrader'
  norm_num at htrader'

end Corsair.Ports.TimeToExpiry
