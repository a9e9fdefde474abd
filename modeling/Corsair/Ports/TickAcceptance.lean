import Corsair.Ports.MsgpackDecode

/-!
# What `decode_tick` accepts

`decode_tick` checks each value that it knows, and where it ends.  It does not note which keys
it met, a value that it skips may end behind the body, and it takes extensions to be shorter
than they are.

## Main results

* `reads_of_decoded`, `decoded_of_reads` — what is accepted, as a map of the format.
* `decode_tick_accepts_incomplete` — the bodies that are accepted without being complete ticks.
-/

namespace Corsair.Ports.TickAcceptance

open Corsair.Verified
open Corsair.Verified.BigEndian
open Corsair.Verified.MsgPack (utf8)
open Corsair.Verified.Tagged
open Corsair.Ports.MsgpackDecode

/-! ## Kinds of values -/

def isInt (tag : UInt8) : Bool := tag ≤ 0x7f || 0xe0 ≤ tag || (0xcc ≤ tag && tag ≤ 0xd3)

def isNumber (tag : UInt8) : Bool := isInt tag || tag = 0xca || tag = 0xcb

def isStr (tag : UInt8) : Bool := (0xa0 ≤ tag && tag ≤ 0xbf) || (0xd9 ≤ tag && tag ≤ 0xdb)

def isMap (tag : UInt8) : Bool := (0x80 ≤ tag && tag ≤ 0x8f) || tag = 0xde || tag = 0xdf

/-- What the decoder expects under a key. -/
inductive FieldKind
  | f64
  | optF64
  | optInt
  | str
  | unknown
  deriving DecidableEq, Repr

def kindOf (key : List UInt8) : FieldKind :=
  if key = utf8 "strike" then .f64
  else if key = utf8 "expiry" ∨ key = utf8 "right" then .str
  else if key = utf8 "bid" ∨ key = utf8 "ask" ∨ key = utf8 "depth_bid_0" ∨
      key = utf8 "depth_bid_1" ∨ key = utf8 "depth_ask_0" ∨ key = utf8 "depth_ask_1" then .optF64
  else if key = utf8 "bid_size" ∨ key = utf8 "ask_size" ∨ key = utf8 "ts_ns" ∨
      key = utf8 "broker_recv_ns" then .optInt
  else .unknown

/-- The tags that the decoder accepts under a key. -/
def FieldKind.accepts : FieldKind → UInt8 → Bool
  | .f64, tag => isNumber tag
  | .optF64, tag => tag = 0xc0 || isNumber tag
  | .optInt, tag => tag = 0xc0 || isInt tag
  | .str, tag => isStr tag
  | .unknown, _ => true

/-! ## Where the readers end -/

/-- The end of the value at `p`, if the body holds all of it. -/
def valueEnd (body : List UInt8) (p : Nat) : Option Nat :=
  (walk messagePack body body.length p).filter (· ≤ body.length)

theorem valueEnd_eq_some {body : List UInt8} {p e : Nat} :
    valueEnd body p = some e ↔ ∃ v, WellFormed messagePack v ∧ Reads body p v ∧
      e = p + v.bytes.length ∧ e ≤ body.length := by
  rw [valueEnd, Option.filter_eq_some_iff, decide_eq_true_eq]
  constructor
  · rintro ⟨hwalk, he⟩
    obtain ⟨v, hwf, hread, hend⟩ := reads_of_walk hwalk
    exact ⟨v, hwf, hread, hend, he⟩
  · rintro ⟨v, hwf, hread, rfl, he⟩
    exact ⟨walk_of_reads hwf hread (by omega), he⟩

theorem walk_tag {body : List UInt8} {p : Nat} {tag : UInt8} (htag : body[p]? = some tag) :
    ∃ step, walk messagePack body body.length p = follow step body p (messagePack tag) := by
  have hp : p < body.length := by
    by_contra hp
    rw [List.getElem?_eq_none (by omega)] at htag
    cases htag
  obtain ⟨level, hlevel⟩ := Nat.exists_eq_succ_of_ne_zero (show body.length ≠ 0 by omega)
  refine ⟨walk messagePack body level, ?_⟩
  rw [hlevel, walk, htag, Option.bind_some]

theorem valueEnd_atom {body : List UInt8} {p width : Nat} {tag : UInt8}
    (htag : body[p]? = some tag) (hshape : messagePack tag = .atom width) :
    valueEnd body p = (slice body (p + 1) width).map fun _ => p + 1 + width := by
  obtain ⟨step, hwalk⟩ := walk_tag htag
  rw [valueEnd, hwalk, hshape, follow, slice]
  by_cases hp : p + 1 + width ≤ body.length
  · rw [if_pos hp, Option.map_some, Option.filter_some, if_pos (decide_eq_true hp)]
  · rw [if_neg hp, Option.map_none, Option.filter_some, if_neg (by simpa using hp)]

theorem valueEnd_sized {body : List UInt8} {p k : Nat} {tag : UInt8}
    (htag : body[p]? = some tag) (hshape : messagePack tag = .sized k 0) :
    valueEnd body p = (slice body (p + 1) k).bind fun numeral =>
      (slice body (p + 1 + k) (ofBytes numeral)).map fun _ => p + 1 + k + ofBytes numeral := by
  obtain ⟨step, hwalk⟩ := walk_tag htag
  rw [valueEnd, hwalk, hshape, follow]
  cases slice body (p + 1) k with
  | none => rfl
  | some numeral =>
      rw [Option.map_some, Option.bind_some, Nat.zero_add, slice]
      by_cases hp : p + 1 + k + ofBytes numeral ≤ body.length
      · rw [if_pos hp, Option.map_some, Option.filter_some, if_pos (decide_eq_true hp)]
      · rw [if_neg hp, Option.map_none, Option.filter_some, if_neg (by simpa using hp)]

/-- The end of the value at `p`, if its tag is allowed there. -/
def endOf (allowed : UInt8 → Bool) (body : List UInt8) (p : Nat) : Option Nat :=
  (body[p]?.filter allowed).bind fun _ => valueEnd body p

theorem endOf_atom {allowed : UInt8 → Bool} {body : List UInt8} {p width : Nat} {tag : UInt8}
    (htag : body[p]? = some tag) (hallowed : allowed tag = true)
    (hshape : messagePack tag = .atom width) :
    endOf allowed body p = (slice body (p + 1) width).map fun _ => p + 1 + width := by
  rw [endOf, htag, Option.filter_some, if_pos hallowed, Option.bind_some,
    valueEnd_atom htag hshape]

theorem endOf_sized {allowed : UInt8 → Bool} {body : List UInt8} {p k : Nat} {tag : UInt8}
    (htag : body[p]? = some tag) (hallowed : allowed tag = true)
    (hshape : messagePack tag = .sized k 0) :
    endOf allowed body p = (slice body (p + 1) k).bind fun numeral =>
      (slice body (p + 1 + k) (ofBytes numeral)).map fun _ => p + 1 + k + ofBytes numeral := by
  rw [endOf, htag, Option.filter_some, if_pos hallowed, Option.bind_some,
    valueEnd_sized htag hshape]

theorem endOf_not_allowed {allowed : UInt8 → Bool} {body : List UInt8} {p : Nat} {tag : UInt8}
    (htag : body[p]? = some tag) (hallowed : allowed tag = false) :
    endOf allowed body p = none := by
  rw [endOf, htag, Option.filter_some, if_neg (by simpa using hallowed), Option.bind_none]

theorem endOf_none {allowed : UInt8 → Bool} {body : List UInt8} {p : Nat}
    (htag : body[p]? = none) : endOf allowed body p = none := by
  rw [endOf, htag]
  rfl

theorem messagePack_fixint {tag : UInt8} : tag ≤ 0x7f ∨ 0xe0 ≤ tag → messagePack tag = .atom 0 :=
  forall_tag (P := fun tag => tag ≤ 0x7f ∨ 0xe0 ≤ tag → messagePack tag = .atom 0)
    (by decide +kernel) tag

theorem messagePack_fixstr {tag : UInt8} :
    0xa0 ≤ tag ∧ tag ≤ 0xbf → messagePack tag = .atom (tag &&& 0x1f).toNat := by
  rintro ⟨hlow, hhigh⟩
  unfold messagePack
  rw [if_neg (by grind), if_neg (by grind), if_neg (by grind), if_pos hhigh]

theorem slice_zero {body : List UInt8} {p : Nat} {tag : UInt8} (htag : body[p]? = some tag) :
    slice body (p + 1) 0 = some [] := by
  have hp : p < body.length := by
    by_contra hp
    rw [List.getElem?_eq_none (by omega)] at htag
    cases htag
  rw [slice, if_pos (by omega), List.take_zero]

/-- A reader of a fixed number of bytes behind the tag ends where the value does. -/
theorem read_fixed_end {α : Type} {allowed : UInt8 → Bool} {body : List UInt8} {p width : Nat}
    {tag : UInt8} (htag : body[p]? = some tag) (hallowed : allowed tag = true)
    (hshape : messagePack tag = .atom width) (value : List UInt8 → α) :
    ((slice body (p + 1) width).bind fun bs => some (value bs, p + 1 + width)).map (·.2) =
      endOf allowed body p := by
  rw [endOf_atom htag hallowed hshape]
  cases slice body (p + 1) width <;> rfl

/-- A reader of one byte behind the tag. -/
theorem read_byte_end {α : Type} {allowed : UInt8 → Bool} {body : List UInt8} {p : Nat}
    {tag : UInt8} (htag : body[p]? = some tag) (hallowed : allowed tag = true)
    (hshape : messagePack tag = .atom 1) (value : UInt8 → α) :
    (body[p + 1]?.bind fun v => some (value v, p + 2)).map (·.2) = endOf allowed body p := by
  rw [endOf_atom htag hallowed hshape, slice_one]
  cases body[p + 1]? <;> rfl

/-- A reader of a tag alone. -/
theorem read_tag_end {α : Type} {allowed : UInt8 → Bool} {body : List UInt8} {p : Nat}
    {tag : UInt8} (htag : body[p]? = some tag) (hallowed : allowed tag = true)
    (hshape : messagePack tag = .atom 0) (value : α) :
    (some (value, p + 1)).map (·.2) = endOf allowed body p := by
  rw [endOf_atom htag hallowed hshape, slice_zero htag]
  rfl

/-- A reader that chooses by the tag ends where both of its branches do. -/
theorem read_ite_end {α : Type} {c : Prop} [Decidable c] {x y : Option (α × Nat)}
    {e : Option Nat} (hthen : c → x.map (·.2) = e) (helse : ¬c → y.map (·.2) = e) :
    (if c then x else y).map (·.2) = e := by
  by_cases h : c
  · rw [if_pos h]
    exact hthen h
  · rw [if_neg h]
    exact helse h

theorem readInt_end (body : List UInt8) (p : Nat) :
    (readInt body p).map (·.2) = endOf isInt body p := by
  unfold readInt
  cases htag : body[p]? with
  | none => exact (endOf_none htag).symm
  | some b =>
      simp only [Option.bind_eq_bind, Option.bind_some]
      have hbyte (value : UInt8 → Int64) (hallowed : isInt b = true)
          (hshape : messagePack b = .atom 1) := read_byte_end htag hallowed hshape value
      have hfixed (width : Nat) (value : List UInt8 → Int64) (hallowed : isInt b = true)
          (hshape : messagePack b = .atom width) := read_fixed_end htag hallowed hshape value
      refine read_ite_end (fun h => read_tag_end htag (by simp [isInt, h])
        (messagePack_fixint (.inl h)) _) fun h0 => ?_
      refine read_ite_end (fun h => read_tag_end htag (by simp [isInt, h])
        (messagePack_fixint (.inr h)) _) fun h1 => ?_
      -- the tags with a fixed number of bytes behind them
      refine read_ite_end (fun h => hbyte _ (h ▸ rfl) (h ▸ rfl)) fun h2 => ?_
      refine read_ite_end (fun h => hfixed 2 _ (h ▸ rfl) (h ▸ rfl)) fun h3 => ?_
      refine read_ite_end (fun h => hfixed 4 _ (h ▸ rfl) (h ▸ rfl)) fun h4 => ?_
      refine read_ite_end (fun h => hfixed 8 _ (h ▸ rfl) (h ▸ rfl)) fun h5 => ?_
      refine read_ite_end (fun h => hbyte _ (h ▸ rfl) (h ▸ rfl)) fun h6 => ?_
      refine read_ite_end (fun h => hfixed 2 _ (h ▸ rfl) (h ▸ rfl)) fun h7 => ?_
      refine read_ite_end (fun h => hfixed 4 _ (h ▸ rfl) (h ▸ rfl)) fun h8 => ?_
      refine read_ite_end (fun h => hfixed 8 _ (h ▸ rfl) (h ▸ rfl)) fun h9 => ?_
      have hall : ∀ tag : UInt8, isInt tag = true → tag ≤ 0x7f ∨ 0xe0 ≤ tag ∨ tag = 0xcc ∨
          tag = 0xcd ∨ tag = 0xce ∨ tag = 0xcf ∨ tag = 0xd0 ∨ tag = 0xd1 ∨ tag = 0xd2 ∨
          tag = 0xd3 := by
        unfold isInt
        grind
      refine (endOf_not_allowed htag (Bool.eq_false_iff.mpr fun hint => ?_)).symm
      have hcases := hall b hint
      simp only [h0, h1, h2, h3, h4, h5, h6, h7, h8, h9, or_self] at hcases

theorem readF64_end (body : List UInt8) (p : Nat) :
    (readF64 body p).map (·.2) = endOf isNumber body p := by
  unfold readF64
  cases htag : body[p]? with
  | none => exact (endOf_none htag).symm
  | some b =>
      simp only [Option.bind_eq_bind, Option.bind_some]
      split_ifs with h0 h1
      · subst h0
        exact read_fixed_end htag rfl rfl _
      · subst h1
        exact read_fixed_end htag rfl rfl _
      · have hnumber : isNumber b = isInt b := by simp [isNumber, h0, h1]
        have hend : endOf isNumber body p = endOf isInt body p := by
          rw [endOf, endOf, htag, Option.filter_some, Option.filter_some, hnumber]
        rw [hend, ← readInt_end]
        cases readInt body p <;> rfl

theorem readStrBytes_end (body : List UInt8) (p : Nat) :
    (readStrBytes body p).map (·.2) = endOf isStr body p := by
  have hbytes (start len : Nat) : ((slice body start len).bind fun bytes =>
      some (bytes, start + len)).map (·.2) = (slice body start len).map fun _ => start + len := by
    cases slice body start len <;> rfl
  unfold readStrBytes strStart
  cases htag : body[p]? with
  | none => exact (endOf_none htag).symm
  | some b =>
      simp only [Option.bind_eq_bind, Option.bind_some]
      split_ifs with h0 h1 h2 h3
      · rw [endOf_atom htag (by simp [isStr, h0]) (messagePack_fixstr h0)]
        exact hbytes (p + 1) (b &&& 0x1f).toNat
      · subst h1
        rw [endOf_sized htag rfl (show messagePack 0xd9 = .sized 1 0 from rfl), slice_one]
        cases body[p + 1]? with
        | none => rfl
        | some len =>
            have hlen : ofBytes [len] = len.toNat := by simp [ofBytes]
            simp only [Option.bind_some, Option.map_some, hlen]
            exact hbytes (p + 2) len.toNat
      · subst h2
        rw [endOf_sized htag rfl (show messagePack 0xda = .sized 2 0 from rfl)]
        cases slice body (p + 1) 2 with
        | none => rfl
        | some numeral => exact hbytes (p + 3) (ofBytes numeral)
      · subst h3
        rw [endOf_sized htag rfl (show messagePack 0xdb = .sized 4 0 from rfl)]
        cases slice body (p + 1) 4 with
        | none => rfl
        | some numeral => exact hbytes (p + 5) (ofBytes numeral)
      · refine (endOf_not_allowed htag ?_).symm
        have hall : ∀ tag : UInt8, ¬ (0xa0 ≤ tag ∧ tag ≤ 0xbf) → ¬ tag = 0xd9 → ¬ tag = 0xda →
            ¬ tag = 0xdb → isStr tag = false := by
          unfold isStr
          grind
        exact hall b h0 h1 h2 h3

theorem endOf_eq_some {allowed : UInt8 → Bool} {body : List UInt8} {p e : Nat} :
    endOf allowed body p = some e ↔ ∃ v, WellFormed messagePack v ∧ Reads body p v ∧
      allowed v.tag = true ∧ e = p + v.bytes.length ∧ e ≤ body.length := by
  constructor
  · intro h
    obtain ⟨tag, htag, hend⟩ := Option.bind_eq_some_iff.mp h
    obtain ⟨htag, hallowed⟩ := Option.filter_eq_some_iff.mp htag
    obtain ⟨v, hwf, hread, he, hinside⟩ := valueEnd_eq_some.mp hend
    obtain rfl := Option.some.inj (htag.symm.trans hread.tag)
    exact ⟨v, hwf, hread, hallowed, he, hinside⟩
  · rintro ⟨v, hwf, hread, hallowed, he, hinside⟩
    rw [endOf, hread.tag, Option.filter_some, if_pos hallowed, Option.bind_some]
    exact valueEnd_eq_some.mpr ⟨v, hwf, hread, he, hinside⟩

theorem isStr_cases {tag : UInt8} (h : isStr tag = true) :
    (0xa0 ≤ tag ∧ tag ≤ 0xbf) ∨ tag = 0xd9 ∨ tag = 0xda ∨ tag = 0xdb := by
  unfold isStr at h
  grind

/-- The payload of a value that has a fixed number of bytes. -/
theorem slice_of_atom {body : List UInt8} {p width : Nat} {v : Datum} (hfits : Fits messagePack v)
    (hshape : messagePack v.tag = .atom width) (h : Reads body p v)
    (hinside : p + v.bytes.length ≤ body.length) :
    slice body (p + 1) width = some v.payload ∧ p + v.bytes.length = p + 1 + width := by
  have hp := h.lt
  have hagrees := h.agrees
  have hlength := length_bytes_of_atom hfits hshape
  unfold Fits at hfits
  rw [hshape] at hfits
  cases v with
  | leaf tag numeral payload =>
      obtain ⟨rfl, rfl⟩ := hfits
      exact ⟨slice_of_agrees ((agrees_cons hp).mp hagrees).2 (by omega), by omega⟩
  | node tag numeral elements => cases hfits

/-- The payload of a value that has its length in front. -/
theorem slice_of_sized {body : List UInt8} {p k : Nat} {v : Datum} (hfits : Fits messagePack v)
    (hshape : messagePack v.tag = .sized k 0) (h : Reads body p v)
    (hinside : p + v.bytes.length ≤ body.length) :
    ∃ numeral, slice body (p + 1) k = some numeral ∧
      slice body (p + 1 + k) (ofBytes numeral) = some v.payload ∧
      p + v.bytes.length = p + 1 + k + ofBytes numeral := by
  have hp := h.lt
  have hagrees := h.agrees
  unfold Fits at hfits
  rw [hshape] at hfits
  cases v with
  | leaf tag numeral payload =>
      obtain ⟨rfl, hlength⟩ := hfits
      rw [Nat.zero_add] at hlength
      rw [Datum.bytes, List.length_cons, List.length_append] at hinside ⊢
      obtain ⟨hnumeral, hpayload⟩ := agrees_append.mp ((agrees_cons hp).mp hagrees).2
      refine ⟨numeral, slice_of_agrees hnumeral (by omega), ?_, by omega⟩
      rw [← hlength]
      exact slice_of_agrees hpayload (by omega)
  | node tag numeral elements => cases hfits

/-- A string that the body holds all of is read. -/
theorem readStrBytes_of_reads {body : List UInt8} {p : Nat} {v : Datum}
    (hwf : WellFormed messagePack v) (hstr : isStr v.tag = true) (h : Reads body p v)
    (hinside : p + v.bytes.length ≤ body.length) :
    readStrBytes body p = some (v.payload, p + v.bytes.length) := by
  have hfits := hwf v (Datum.self_mem_parts v)
  have htag := h.tag
  unfold readStrBytes strStart
  simp only [htag, Option.bind_eq_bind, Option.bind_some]
  rcases isStr_cases hstr with hfix | hd9 | hda | hdb
  · obtain ⟨hslice, hend⟩ := slice_of_atom hfits (messagePack_fixstr hfix) h hinside
    rw [if_pos hfix, hend]
    exact congrArg (Option.bind · _) hslice
  · obtain ⟨numeral, hnumeral, hslice, hend⟩ :=
      slice_of_sized hfits (show messagePack v.tag = .sized 1 0 by rw [hd9]; rfl) h hinside
    rw [slice_one] at hnumeral
    obtain ⟨len, hlen, rfl⟩ := Option.map_eq_some_iff.mp hnumeral
    have hvalue : ofBytes [len] = len.toNat := by simp [ofBytes]
    rw [hvalue] at hslice hend
    rw [hd9, hend, hlen]
    exact congrArg (Option.bind · _) hslice
  · obtain ⟨numeral, hnumeral, hslice, hend⟩ :=
      slice_of_sized hfits (show messagePack v.tag = .sized 2 0 by rw [hda]; rfl) h hinside
    rw [hda, hend, hnumeral]
    exact congrArg (Option.bind · _) hslice
  · obtain ⟨numeral, hnumeral, hslice, hend⟩ :=
      slice_of_sized hfits (show messagePack v.tag = .sized 4 0 by rw [hdb]; rfl) h hinside
    rw [hdb, hend, hnumeral]
    exact congrArg (Option.bind · _) hslice

/-- What `read_str_bytes` reads is a string of the format. -/
theorem readStrBytes_eq_some {body s : List UInt8} {p e : Nat} :
    readStrBytes body p = some (s, e) ↔ ∃ v, WellFormed messagePack v ∧ isStr v.tag = true ∧
      Reads body p v ∧ s = v.payload ∧ e = p + v.bytes.length ∧ e ≤ body.length := by
  constructor
  · intro h
    have hend := readStrBytes_end body p
    rw [h] at hend
    obtain ⟨v, hwf, hread, hstr, rfl, hinside⟩ := endOf_eq_some.mp hend.symm
    rw [readStrBytes_of_reads hwf hstr hread hinside] at h
    exact ⟨v, hwf, hstr, hread, (Prod.mk.inj (Option.some.inj h)).1.symm, rfl, hinside⟩
  · rintro ⟨v, hwf, hstr, hread, rfl, rfl, hinside⟩
    exact readStrBytes_of_reads hwf hstr hread hinside

/-! ## The values under the keys -/

theorem assignOpt_end {α : Type} {allowed : UInt8 → Bool} {body : List UInt8} {p : Nat}
    {read : Option (α × Nat)} (hread : read.map (·.2) = endOf allowed body p) :
    (assignOpt body p read).map (·.2) = endOf (fun tag => tag = 0xc0 || allowed tag) body p := by
  unfold assignOpt
  cases htag : body[p]? with
  | none => exact (endOf_none htag).symm
  | some b =>
      simp only [Option.bind_eq_bind, Option.bind_some]
      split_ifs with hnil
      · subst hnil
        exact read_tag_end htag rfl rfl _
      · have hend : endOf (fun tag => tag = 0xc0 || allowed tag) body p = endOf allowed body p := by
          rw [endOf, endOf, htag, Option.filter_some, Option.filter_some]
          simp [hnil]
        rw [hend, ← hread]
        cases read <;> rfl

/-- The end of the value under a key of the given kind. -/
def fieldEnd (kind : FieldKind) (body : List UInt8) (p : Nat) : Option Nat :=
  if kind = .unknown then skipValue body p else endOf kind.accepts body p

/-- The keys that the decoder knows. -/
def knownKeys : List (List UInt8) :=
  [utf8 "strike", utf8 "expiry", utf8 "right", utf8 "bid", utf8 "ask", utf8 "depth_bid_0",
   utf8 "depth_bid_1", utf8 "depth_ask_0", utf8 "depth_ask_1", utf8 "bid_size", utf8 "ask_size",
   utf8 "ts_ns", utf8 "broker_recv_ns"]

theorem length_knownKeys :
    (utf8 "strike").length = 6 ∧ (utf8 "expiry").length = 6 ∧ (utf8 "right").length = 5 ∧
      (utf8 "bid").length = 3 ∧ (utf8 "ask").length = 3 ∧ (utf8 "depth_bid_0").length = 11 ∧
      (utf8 "depth_bid_1").length = 11 ∧ (utf8 "depth_ask_0").length = 11 ∧
      (utf8 "depth_ask_1").length = 11 ∧ (utf8 "bid_size").length = 8 ∧
      (utf8 "ask_size").length = 8 ∧ (utf8 "ts_ns").length = 5 ∧
      (utf8 "broker_recv_ns").length = 14 := by
  decide +kernel

theorem utf8_inj {s t : String} : utf8 s = utf8 t ↔ s = t := by
  constructor
  · intro h
    have hbytes : s.toUTF8 = t.toUTF8 := ByteArray.ext (Array.ext' h)
    exact String.toByteArray_inj.mp hbytes
  · rintro rfl
    rfl

theorem map_end {α β : Type} {g : α × Nat → β × Nat} (hg : ∀ x, (g x).2 = x.2)
    (read : Option (α × Nat)) : (read.map g).map (·.2) = read.map (·.2) := by
  cases read with
  | none => rfl
  | some x => exact congrArg some (hg x)

/-- Where the value under a key ends. -/
theorem assignField_end (body : List UInt8) (p : Nat) (key : List UInt8) (out : TickMsg) :
    (assignField body p key out).map (·.2) = fieldEnd (kindOf key) body p := by
  have hf64 : (readF64 body p).map (·.2) = fieldEnd .f64 body p := readF64_end body p
  have hstr : (assignString body p).map (·.2) = fieldEnd .str body p := readStrBytes_end body p
  have hoptF64 : (assignOptF64 body p).map (·.2) = fieldEnd .optF64 body p :=
    assignOpt_end (readF64_end body p)
  have hoptU64 : (assignOptU64 body p).map (·.2) = fieldEnd .optInt body p := by
    refine assignOpt_end ((map_end ?_ _).trans (readInt_end body p))
    exact fun _ => rfl
  have hoptI32 : (assignOptI32 body p).map (·.2) = fieldEnd .optInt body p := by
    refine assignOpt_end ((map_end ?_ _).trans (readInt_end body p))
    exact fun _ => rfl
  by_cases hknown : key ∈ knownKeys
  · simp only [knownKeys, List.mem_cons, List.not_mem_nil, or_false] at hknown
    rcases hknown with rfl | rfl | rfl | rfl | rfl | rfl | rfl | rfl | rfl | rfl | rfl | rfl | rfl
    all_goals
      simp only [assignField, kindOf, length_knownKeys, utf8_inj, String.reduceEq, if_true,
        if_false, or_true, or_false]
      refine (map_end ?_ _).trans ?_
      · exact fun _ => rfl
    · exact hf64
    · exact hstr
    · exact hstr
    · exact hoptF64
    · exact hoptF64
    · exact hoptF64
    · exact hoptF64
    · exact hoptF64
    · exact hoptF64
    · exact hoptI32
    · exact hoptI32
    · exact hoptU64
    · exact hoptU64
  · simp only [knownKeys, List.mem_cons, List.not_mem_nil, or_false, not_or] at hknown
    have hkind : kindOf key = .unknown := by simp [kindOf, hknown]
    have hskip : assignField body p key out = (skipValue body p).map fun e => (out, e) := by
      simp only [assignField, hknown, if_false]
      split <;> rfl
    rw [hkind, hskip, fieldEnd, if_pos rfl]
    cases skipValue body p <;> rfl

/-! ## The pairs of a map -/

/-- The elements of a map, in pairs. -/
def pairsOf : List Datum → List (Datum × Datum)
  | key :: value :: rest => (key, value) :: pairsOf rest
  | _ => []

/-- The decoder accepts the key and the tag of the value under it. -/
def PairOk (pair : Datum × Datum) : Prop :=
  isStr pair.1.tag = true ∧ (kindOf pair.1.payload).accepts pair.2.tag = true

/-- The decoder skips the last value. -/
def LastSkipped (elements : List Datum) : Prop :=
  ∃ front key value, elements = front ++ [key, value] ∧ kindOf key.payload = .unknown

/-- The end of `n` pairs. -/
def pairsEnd (body : List UInt8) : Nat → Nat → Option Nat
  | 0, p => some p
  | n + 1, p =>
      (readStrBytes body p).bind fun (key, q) =>
        (fieldEnd (kindOf key) body q).bind fun e => pairsEnd body n e

theorem tickLoop_accepts (body : List UInt8) (n p : Nat) (out : TickMsg) :
    (tickLoop body n p out).1 = (pairsEnd body n p).isSome := by
  induction n generalizing p out with
  | zero => rfl
  | succ n ih =>
      rw [tickLoop, pairsEnd]
      cases readStrBytes body p with
      | none => rfl
      | some r =>
          obtain ⟨key, q⟩ := r
          have hend := assignField_end body q key out
          simp only [Option.bind_some]
          cases hfield : assignField body q key out with
          | none =>
              rw [hfield, Option.map_none] at hend
              rw [← hend]
              rfl
          | some r =>
              obtain ⟨out', e⟩ := r
              rw [hfield, Option.map_some] at hend
              rw [← hend, Option.bind_some]
              exact ih e out'

/-- A value that the decoder knows is a leaf that `skip_value` knows as well. -/
theorem wellFormed_skip_of_accepts {v : Datum} (hwf : WellFormed messagePack v)
    (htag : (isStr v.tag || isNumber v.tag || decide (v.tag = 0xc0)) = true) :
    WellFormed skipTable v := by
  have hall : ∀ tag : UInt8, (isStr tag || isNumber tag || decide (tag = 0xc0)) = true →
      isExt tag = false ∧
        ((messagePack tag matches .atom _) ∨ (messagePack tag matches .sized _ _)) :=
    forall_tag (by decide +kernel)
  obtain ⟨hext, hshape⟩ := hall v.tag htag
  refine hwf.of_agree fun w hw => ?_
  cases v with
  | leaf tag numeral payload =>
      obtain rfl := List.mem_singleton.mp hw
      exact skipTable_eq hext
  | node tag numeral elements =>
      have hfits := fits_node.mp (hwf _ (Datum.self_mem_parts _))
      rcases hfits with ⟨hitems, -⟩ | ⟨per, hitems, -⟩
      · rw [show (Datum.node tag numeral elements).tag = tag from rfl, hitems] at hshape
        simp at hshape
      · rw [show (Datum.node tag numeral elements).tag = tag from rfl, hitems] at hshape
        simp at hshape

theorem leaf_tag_of_accepts {kind : FieldKind} (hknown : kind ≠ .unknown) {tag : UInt8}
    (h : kind.accepts tag = true) : (isStr tag || isNumber tag || decide (tag = 0xc0)) = true := by
  cases kind with
  | unknown => exact absurd rfl hknown
  | f64 => simp_all [FieldKind.accepts]
  | str => simp_all [FieldKind.accepts]
  | optF64 =>
      simp only [FieldKind.accepts, Bool.or_eq_true] at h ⊢
      exact h.elim .inr fun h => .inl (.inr h)
  | optInt =>
      simp only [FieldKind.accepts, Bool.or_eq_true] at h ⊢
      exact h.elim .inr fun h => .inl (.inr (by simp [isNumber, h]))

/-- The value that ends where the decoder says, by the widths that it skips by. -/
theorem reads_of_fieldEnd {kind : FieldKind} {body : List UInt8} {p e : Nat}
    (h : fieldEnd kind body p = some e) :
    ∃ v, WellFormed skipTable v ∧ Reads body p v ∧ kind.accepts v.tag = true ∧
      e = p + v.bytes.length ∧ (body.length < e → kind = .unknown) := by
  unfold fieldEnd at h
  split at h
  · rename_i hkind
    rw [skipValue, skipLevels_eq_walk] at h
    obtain ⟨v, hwf, hread, hend⟩ := reads_of_walk h
    exact ⟨v, hwf, hread, by rw [hkind]; rfl, hend, fun _ => hkind⟩
  · rename_i hknown
    obtain ⟨v, hwf, hread, haccepts, hend, hinside⟩ := endOf_eq_some.mp h
    exact ⟨v, wellFormed_skip_of_accepts hwf (leaf_tag_of_accepts hknown haccepts), hread,
      haccepts, hend, fun hcut => absurd hinside (by omega)⟩

theorem fieldEnd_of_reads {kind : FieldKind} {body : List UInt8} {p : Nat} {v : Datum}
    (hwf : WellFormed messagePack v) (hread : Reads body p v) (haccepts : kind.accepts v.tag = true)
    (hext : kind = .unknown → ∀ w ∈ v.parts, isExt w.tag = false)
    (hinside : kind ≠ .unknown → p + v.bytes.length ≤ body.length) :
    fieldEnd kind body p = some (p + v.bytes.length) := by
  unfold fieldEnd
  split
  · rename_i hkind
    exact skipValue_of_reads hwf (hext hkind) hread
  · rename_i hknown
    exact endOf_eq_some.mpr ⟨v, hwf, hread, haccepts, rfl, hinside hknown⟩

/-- A key and a value in front of pairs that stand in the buffer. -/
theorem readsAll_pair {body : List UInt8} {p : Nat} {key value : Datum} {rest : List Datum}
    (hkey : Reads body p key) (hvalue : Reads body (p + key.bytes.length) value)
    (hrest : rest ≠ [] → ReadsAll body (p + key.bytes.length + value.bytes.length) rest) :
    ReadsAll body p (key :: value :: rest) := by
  cases rest with
  | nil => exact readsAll_cons hkey (readsAll_singleton hvalue)
  | cons v rest => exact readsAll_cons hkey (readsAll_cons hvalue (hrest (by simp)))

/-- The pairs that end where the decoder says, by the widths that it skips by. -/
theorem reads_of_pairsEnd {body : List UInt8} {n p e : Nat} (hp : p ≤ body.length)
    (h : pairsEnd body n p = some e) :
    ∃ vs, vs.length = 2 * n ∧ (∀ v ∈ vs, WellFormed skipTable v) ∧ ReadsAll body p vs ∧
      e = p + (Datum.bytesAll vs).length ∧ (∀ pair ∈ pairsOf vs, PairOk pair) ∧
      (body.length < e → LastSkipped vs) := by
  induction n generalizing p with
  | zero =>
      obtain rfl := Option.some.inj h
      exact ⟨[], rfl, by simp, ⟨by simp [Agrees, Datum.bytesAll],
        by simpa [Datum.bytesAll, Datum.slackAll] using hp⟩, by simp [Datum.bytesAll],
        by simp [pairsOf], fun hcut => absurd hp (by omega)⟩
  | succ n ih =>
      obtain ⟨⟨s, q⟩, hs, h⟩ := Option.bind_eq_some_iff.mp h
      obtain ⟨e', hfield, h⟩ := Option.bind_eq_some_iff.mp h
      obtain ⟨key, hkeywf, hstr, hkey, rfl, rfl, hq⟩ := readStrBytes_eq_some.mp hs
      obtain ⟨value, hvaluewf, hvalue, haccepts, rfl, hcut⟩ := reads_of_fieldEnd hfield
      have hkeyskip : WellFormed skipTable key :=
        wellFormed_skip_of_accepts hkeywf (by simp [hstr])
      cases n with
      | zero =>
          obtain rfl := Option.some.inj h
          refine ⟨[key, value], rfl, by simp [hkeyskip, hvaluewf],
            readsAll_pair hkey hvalue (fun hne => absurd rfl hne), ?_, ?_, ?_⟩
          · simp [Datum.bytesAll, Nat.add_assoc]
          · simpa [pairsOf, PairOk] using ⟨hstr, haccepts⟩
          · exact fun hlong => ⟨[], key, value, rfl, hcut hlong⟩
      | succ n =>
          -- another key starts behind this value, so nothing of it is cut off
          obtain ⟨⟨_, _⟩, hnext, _⟩ := Option.bind_eq_some_iff.mp h
          obtain ⟨_, _, _, hread, -⟩ := readStrBytes_eq_some.mp hnext
          obtain ⟨vs, hlength, hwf, hreads, hend, hok, hlast⟩ := ih (Nat.le_of_lt hread.lt) h
          refine ⟨key :: value :: vs, by simp [hlength]; omega, ?_,
            readsAll_pair hkey hvalue (fun _ => hreads), ?_, ?_, ?_⟩
          · exact List.forall_mem_cons.mpr ⟨hkeyskip, List.forall_mem_cons.mpr ⟨hvaluewf, hwf⟩⟩
          · simp only [Datum.bytesAll, List.length_append, hend]
            omega
          · exact List.forall_mem_cons.mpr ⟨⟨hstr, haccepts⟩, hok⟩
          · intro hlong
            obtain ⟨front, k, v, rfl, hkind⟩ := hlast hlong
            exact ⟨key :: value :: front, k, v, rfl, hkind⟩

/-- The decoder skips the value of the pair, and there is an extension in it. -/
def SkipsExt (pair : Datum × Datum) : Prop :=
  kindOf pair.1.payload = .unknown ∧ ∃ w ∈ pair.2.parts, isExt w.tag = true

theorem LastSkipped.rest {key value : Datum} {rest : List Datum}
    (h : LastSkipped (key :: value :: rest)) {n : Nat} (hlength : rest.length = 2 * (n + 1)) :
    LastSkipped rest := by
  obtain ⟨front, k, v, hsplit, hkind⟩ := h
  rcases front with - | ⟨x, - | ⟨y, front⟩⟩
  · simp only [List.nil_append, List.cons.injEq] at hsplit
    obtain ⟨-, -, rfl⟩ := hsplit
    simp at hlength
  · simp only [List.cons_append, List.nil_append, List.cons.injEq] at hsplit
    obtain ⟨-, -, rfl⟩ := hsplit
    simp at hlength
    omega
  · simp only [List.cons_append, List.cons.injEq] at hsplit
    exact ⟨front, k, v, hsplit.2.2, hkind⟩

theorem LastSkipped.unknown {key value : Datum} (h : LastSkipped [key, value]) :
    kindOf key.payload = .unknown := by
  obtain ⟨front, k, v, hsplit, hkind⟩ := h
  rcases front with - | ⟨x, front⟩
  · simp only [List.nil_append, List.cons.injEq] at hsplit
    rw [hsplit.1]
    exact hkind
  · have hlength := congrArg List.length hsplit
    simp only [List.length_cons, List.length_nil, List.length_append] at hlength
    omega

/-- Pairs that stand in the buffer are read to their end. -/
theorem pairsEnd_of_reads {body : List UInt8} {n p : Nat} {vs : List Datum}
    (hlength : vs.length = 2 * n) (hwf : ∀ v ∈ vs, WellFormed messagePack v)
    (hreads : ReadsAll body p vs) (hok : ∀ pair ∈ pairsOf vs, PairOk pair ∧ ¬ SkipsExt pair)
    (hcut : body.length < p + (Datum.bytesAll vs).length → LastSkipped vs) :
    pairsEnd body n p = some (p + (Datum.bytesAll vs).length) := by
  induction n generalizing p vs with
  | zero =>
      obtain rfl := List.length_eq_zero_iff.mp hlength
      simp [pairsEnd, Datum.bytesAll]
  | succ n ih =>
      rcases vs with - | ⟨key, - | ⟨value, rest⟩⟩
      · simp at hlength
      · simp at hlength
        omega
      have hrest : rest.length = 2 * n := by simp at hlength; omega
      simp only [List.forall_mem_cons] at hwf
      obtain ⟨hkeywf, hvaluewf, hrestwf⟩ := hwf
      obtain ⟨⟨⟨hstr, haccepts⟩, hext⟩, hrestok⟩ := List.forall_mem_cons.mp hok
      have hkey := hreads.head
      have hvalue := hreads.tail.head
      have hkeyend : p + key.bytes.length ≤ body.length := Nat.le_of_lt hvalue.lt
      have hs := readStrBytes_of_reads hkeywf hstr hkey hkeyend
      have hvalueend : kindOf key.payload ≠ .unknown →
          p + key.bytes.length + value.bytes.length ≤ body.length := by
        intro hknown
        cases rest with
        | nil =>
            by_contra hlong
            refine hknown (hcut ?_).unknown
            simp only [Datum.bytesAll, List.length_append, List.length_nil]
            omega
        | cons next rest => exact Nat.le_of_lt hreads.tail.tail.head.lt
      have hskip : kindOf key.payload = .unknown → ∀ w ∈ value.parts, isExt w.tag = false := by
        intro hkind w hw
        by_contra h
        exact hext ⟨hkind, w, hw, by simpa using h⟩
      have hfield := fieldEnd_of_reads hvaluewf hvalue haccepts hskip hvalueend
      have htotal : p + (Datum.bytesAll (key :: value :: rest)).length =
          p + key.bytes.length + value.bytes.length + (Datum.bytesAll rest).length := by
        simp only [Datum.bytesAll, List.length_append]
        omega
      rw [htotal] at hcut ⊢
      rw [pairsEnd, hs, Option.bind_some]
      simp only [hfield, Option.bind_some]
      cases n with
      | zero =>
          obtain rfl := List.length_eq_zero_iff.mp hrest
          simp [pairsEnd, Datum.bytesAll]
      | succ n =>
          rcases rest with - | ⟨next, rest⟩
          · simp at hrest
          · exact ih hrest hrestwf hreads.tail.tail hrestok fun hlong => (hcut hlong).rest hrest

/-! ## The body -/

theorem isMap_cases {tag : UInt8} (h : isMap tag = true) :
    (0x80 ≤ tag ∧ tag ≤ 0x8f) ∨ tag = 0xde ∨ tag = 0xdf := by
  unfold isMap at h
  grind

theorem messagePack_fixmap {tag : UInt8} :
    0x80 ≤ tag ∧ tag ≤ 0x8f → messagePack tag = .items (2 * (tag &&& 0x0f).toNat) := by
  rintro ⟨hlow, hhigh⟩
  unfold messagePack
  rw [if_neg (by grind), if_pos hhigh]

/-- The header of a map: its tag and its count, if it has one. -/
theorem readMapHeader_eq_some {body : List UInt8} {n q : Nat} :
    readMapHeader body 0 = some (n, q) ↔ ∃ tag numeral, body[0]? = some tag ∧ isMap tag = true ∧
      slice body 1 numeral.length = some numeral ∧ q = 1 + numeral.length ∧
      ((messagePack tag = .items (2 * n) ∧ numeral = []) ∨
        (messagePack tag = .sizedItems numeral.length 2 ∧ n = ofBytes numeral)) := by
  unfold readMapHeader
  constructor
  · intro h
    obtain ⟨tag, htag, h⟩ := Option.bind_eq_some_iff.mp h
    split_ifs at h with h0 h1 h2
    · obtain ⟨rfl, rfl⟩ := Prod.mk.inj (Option.some.inj h)
      exact ⟨tag, [], htag, by simp [isMap, h0], slice_zero htag, rfl,
        .inl ⟨messagePack_fixmap h0, rfl⟩⟩
    · subst h1
      obtain ⟨numeral, hslice, h⟩ := Option.bind_eq_some_iff.mp h
      obtain ⟨rfl, rfl⟩ := Prod.mk.inj (Option.some.inj h)
      obtain ⟨-, hlength, -⟩ := agrees_of_slice hslice
      exact ⟨0xde, numeral, htag, rfl, by rw [hlength]; exact hslice, by rw [hlength],
        .inr ⟨by rw [hlength]; rfl, rfl⟩⟩
    · subst h2
      obtain ⟨numeral, hslice, h⟩ := Option.bind_eq_some_iff.mp h
      obtain ⟨rfl, rfl⟩ := Prod.mk.inj (Option.some.inj h)
      obtain ⟨-, hlength, -⟩ := agrees_of_slice hslice
      exact ⟨0xdf, numeral, htag, rfl, by rw [hlength]; exact hslice, by rw [hlength],
        .inr ⟨by rw [hlength]; rfl, rfl⟩⟩
  · rintro ⟨tag, numeral, htag, hmap, hslice, rfl, hcount⟩
    simp only [htag, Option.bind_eq_bind, Option.bind_some]
    rcases isMap_cases hmap with h0 | rfl | rfl
    · rw [if_pos h0]
      rcases hcount with ⟨hshape, rfl⟩ | ⟨hshape, -⟩
      · rw [messagePack_fixmap h0] at hshape
        have hn : (tag &&& 0x0f).toNat = n := by
          have := Shape.items.inj hshape
          omega
        rw [hn]
        rfl
      · rw [messagePack_fixmap h0] at hshape
        cases hshape
    · rcases hcount with ⟨hshape, -⟩ | ⟨hshape, rfl⟩
      · cases hshape
      · have hlength : 2 = numeral.length := (Shape.sizedItems.inj hshape).1
        rw [← hlength] at hslice ⊢
        simp [hslice]
    · rcases hcount with ⟨hshape, -⟩ | ⟨hshape, rfl⟩
      · cases hshape
      · have hlength : 4 = numeral.length := (Shape.sizedItems.inj hshape).1
        rw [← hlength] at hslice ⊢
        simp [hslice]

theorem isExt_of_isMap {tag : UInt8} (h : isMap tag = true) : isExt tag = false := by
  unfold isMap at h
  unfold isExt
  grind

/-- **What is accepted**, by the widths that `skip_value` skips by: a map whose keys are
strings, with values of the right kinds under the known keys.  Only a last value that is skipped
may be cut off. -/
theorem reads_of_decoded {body : List UInt8} {out : TickMsg} (h : (decodeTick body out).1 = true) :
    ∃ v, WellFormed skipTable v ∧ isMap v.tag = true ∧ Reads body 0 v ∧
      (∀ pair ∈ pairsOf v.elements, PairOk pair) ∧
      (body.length < v.bytes.length → LastSkipped v.elements) := by
  unfold decodeTick at h
  split at h
  · cases h
  · rename_i n q hheader
    obtain ⟨tag, numeral, htag, hmap, hslice, rfl, hcount⟩ := readMapHeader_eq_some.mp hheader
    obtain ⟨hnumeral, -, hinside⟩ := agrees_of_slice hslice
    rw [tickLoop_accepts, Option.isSome_iff_exists] at h
    obtain ⟨e, hend⟩ := h
    obtain ⟨vs, hlength, hwf, ⟨hagrees, hslack⟩, rfl, hok, hlast⟩ := reads_of_pairsEnd hinside hend
    have hp : 0 < body.length := by omega
    have hlen : (Datum.node tag numeral vs).bytes.length =
        1 + numeral.length + (Datum.bytesAll vs).length := by
      simp only [Datum.bytes, List.length_cons, List.length_append]
      omega
    have hall : Agrees body 0 (Datum.node tag numeral vs).bytes :=
      (agrees_cons hp).mpr
        ⟨htag, agrees_append.mpr ⟨by simpa using hnumeral, by simpa using hagrees⟩⟩
    refine ⟨.node tag numeral vs, wellFormed_node ?_ hwf, hmap, ⟨hall, ?_⟩, hok, ?_⟩
    · rw [fits_node, skipTable_eq (isExt_of_isMap hmap)]
      rcases hcount with ⟨hshape, rfl⟩ | ⟨hshape, rfl⟩
      · exact .inl ⟨by rw [hshape, hlength], rfl⟩
      · exact .inr ⟨2, hshape, by omega⟩
    · rw [hlen, Datum.slack]
      omega
    · rw [hlen]
      exact hlast

/-- A map has its pairs as elements. -/
theorem node_of_isMap {v : Datum} (hfits : Fits messagePack v) (hmap : isMap v.tag = true) :
    ∃ numeral elements n, v = .node v.tag numeral elements ∧ elements.length = 2 * n ∧
      ((messagePack v.tag = .items (2 * n) ∧ numeral = []) ∨
        (messagePack v.tag = .sizedItems numeral.length 2 ∧ n = ofBytes numeral)) := by
  have hshape : messagePack v.tag = .items (2 * (v.tag &&& 0x0f).toNat) ∨
      messagePack v.tag = .sizedItems 2 2 ∨ messagePack v.tag = .sizedItems 4 2 := by
    rcases isMap_cases hmap with hfix | hde | hdf
    · exact .inl (messagePack_fixmap hfix)
    · rw [hde]
      exact .inr (.inl rfl)
    · rw [hdf]
      exact .inr (.inr rfl)
  cases v with
  | leaf tag numeral payload =>
      have hleaf := fits_leaf.mp hfits
      simp only [Datum.tag] at hshape
      grind
  | node tag numeral elements =>
      have hnode := fits_node.mp hfits
      simp only [Datum.tag] at hshape ⊢
      rcases hnode with ⟨hitems, rfl⟩ | ⟨per, hitems, hlength⟩
      · refine ⟨[], elements, (tag &&& 0x0f).toNat, rfl, by grind, .inl ⟨by grind, rfl⟩⟩
      · have hper : per = 2 := by grind
        subst hper
        exact ⟨numeral, elements, ofBytes numeral, rfl, by omega, .inr ⟨hitems, rfl⟩⟩

/-- **What is accepted**, by the format. -/
theorem decoded_of_reads {body : List UInt8} {v : Datum} (hwf : WellFormed messagePack v)
    (hmap : isMap v.tag = true) (hread : Reads body 0 v)
    (hok : ∀ pair ∈ pairsOf v.elements, PairOk pair ∧ ¬ SkipsExt pair)
    (hcut : body.length < v.bytes.length → LastSkipped v.elements) (out : TickMsg) :
    (decodeTick body out).1 = true := by
  obtain ⟨numeral, elements, n, hnode, hlength, hcount⟩ :=
    node_of_isMap (hwf v (Datum.self_mem_parts v)) hmap
  have hp := hread.lt
  have htag := hread.tag
  obtain ⟨hagrees, hinside⟩ := hread
  generalize v.tag = tag at hnode hmap hcount htag
  subst hnode
  rw [Datum.bytes, agrees_cons hp, agrees_append] at hagrees
  obtain ⟨-, hnumeral, helements⟩ := hagrees
  rw [Datum.bytes, List.length_cons, List.length_append] at hinside hcut
  rw [Datum.slack] at hinside
  have hslack := Datum.slackAll_le elements
  have hslice : slice body 1 numeral.length = some numeral :=
    slice_of_agrees (by simpa using hnumeral) (by omega)
  have hheader : readMapHeader body 0 = some (n, 1 + numeral.length) :=
    readMapHeader_eq_some.mpr ⟨tag, numeral, htag, hmap, hslice, rfl, hcount⟩
  have hreads : ReadsAll body (1 + numeral.length) elements :=
    ⟨by simpa using helements, by omega⟩
  have hend := pairsEnd_of_reads hlength (fun w hw => hwf.element hw) hreads hok
    fun hlong => hcut (by omega)
  rw [decodeTick, hheader]
  simp only [tickLoop_accepts, hend, Option.isSome_some]

/-! ## Complete ticks -/

/-- The bytes of a string. -/
def isUtf8 (bytes : List UInt8) : Bool := (String.fromUTF8? ⟨bytes.toArray⟩).isSome

/-- The map has the key, and under it nothing but values that are as they should be. -/
def HasField (v : Datum) (key : List UInt8) (good : Datum → Bool) : Prop :=
  (∃ pair ∈ pairsOf v.elements, isStr pair.1.tag = true ∧ pair.1.payload = key) ∧
    ∀ pair ∈ pairsOf v.elements, isStr pair.1.tag = true → pair.1.payload = key →
      good pair.2 = true

/-- The fields that `TickMsg` requires: a number and two strings. -/
def HasRequired (v : Datum) : Prop :=
  HasField v (utf8 "strike") (fun x => isNumber x.tag) ∧
    HasField v (utf8 "expiry") (fun x => isStr x.tag && isUtf8 x.payload) ∧
    HasField v (utf8 "right") (fun x => isStr x.tag && isUtf8 x.payload)

/-- The body starts with a map of the format, all of which it holds and which has the required
fields. -/
def Complete (body : List UInt8) : Prop :=
  ∃ v, WellFormed messagePack v ∧ isMap v.tag = true ∧ v.bytes <+: body ∧ HasRequired v

/-- A map of the format that the decoder reads: the keys are strings, the values under known
keys are of the right kinds, and no value that is skipped has an extension in it. -/
def Readable (v : Datum) : Prop :=
  WellFormed messagePack v ∧ isMap v.tag = true ∧
    ∀ pair ∈ pairsOf v.elements, PairOk pair ∧ ¬ SkipsExt pair

/-- The body holds all of a map that the decoder reads, in which a required field is missing
or is not UTF-8. -/
def LacksRequired (body : List UInt8) : Prop :=
  ∃ v, Readable v ∧ v.bytes <+: body ∧ ¬ HasRequired v

/-- The body ends inside the bytes of a last value that the decoder skips. -/
def CutShort (body : List UInt8) : Prop :=
  ∃ v, Readable v ∧ body <+: v.bytes ∧ body.length < v.bytes.length ∧
    v.bytes.length ≤ body.length + v.slack ∧ LastSkipped v.elements

/-- The decoder meets an extension in a value that it skips, by the widths that it skips by. -/
def MeetsExt (body : List UInt8) : Prop :=
  ∃ v, WellFormed skipTable v ∧ isMap v.tag = true ∧ Reads body 0 v ∧
    (∀ pair ∈ pairsOf v.elements, PairOk pair) ∧ ∃ w ∈ v.parts, isExt w.tag = true

theorem agrees_of_front {body bytes : List UInt8} (h : bytes <+: body ∨ body <+: bytes) :
    Agrees body 0 bytes := by
  intro i hi hp
  rw [Nat.zero_add] at hp ⊢
  rcases h with ⟨rest, rfl⟩ | ⟨rest, rfl⟩
  · exact List.getElem?_append_left hi
  · exact (List.getElem?_append_left hp).symm

/-- Bytes that stand at the front are the buffer, as far as both go. -/
theorem take_of_agrees {body bytes : List UInt8} (h : Agrees body 0 bytes) :
    bytes.take body.length = body.take bytes.length := by
  refine List.ext_getElem? fun i => ?_
  by_cases hi : i < body.length ∧ i < bytes.length
  · have hbyte := h i hi.2 (by omega)
    rw [Nat.zero_add] at hbyte
    rw [List.getElem?_take_of_lt hi.1, List.getElem?_take_of_lt hi.2, hbyte]
  · rw [List.getElem?_eq_none (by simp; omega), List.getElem?_eq_none (by simp; omega)]

theorem prefix_of_agrees {body bytes : List UInt8} (h : Agrees body 0 bytes)
    (hlength : bytes.length ≤ body.length) : bytes <+: body := by
  rw [List.prefix_iff_eq_take, ← take_of_agrees h, List.take_of_length_le hlength]

theorem body_prefix_of_agrees {body bytes : List UInt8} (h : Agrees body 0 bytes)
    (hlength : body.length ≤ bytes.length) : body <+: bytes := by
  rw [List.prefix_iff_eq_take, take_of_agrees h, List.take_of_length_le hlength]

theorem mem_of_mem_pairsOf {pair : Datum × Datum} {vs : List Datum} (h : pair ∈ pairsOf vs) :
    pair.2 ∈ vs := by
  induction vs using pairsOf.induct with
  | case1 key value rest ih =>
      rcases List.mem_cons.mp h with rfl | h
      · simp
      · exact List.mem_cons_of_mem _ (List.mem_cons_of_mem _ (ih h))
  | case2 vs hvs =>
      rw [pairsOf] at h
      · cases h
      · exact hvs

theorem parts_of_mem_elements {v x w : Datum} (hx : x ∈ v.elements) (hw : w ∈ x.parts) :
    w ∈ v.parts := by
  cases v with
  | leaf tag numeral payload => cases hx
  | node tag numeral elements => exact Datum.parts_of_element hx hw

/-- Where no extension is met, what is accepted is a map that the decoder reads. -/
theorem readable_of_decoded {body : List UInt8} {out : TickMsg} (hext : ¬ MeetsExt body)
    (h : (decodeTick body out).1 = true) :
    ∃ v, Readable v ∧ Reads body 0 v ∧ (body.length < v.bytes.length → LastSkipped v.elements) := by
  obtain ⟨v, hwf, hmap, hread, hok, hcut⟩ := reads_of_decoded h
  have hnone : ∀ w ∈ v.parts, isExt w.tag = false := by
    intro w hw
    by_contra hw'
    exact hext ⟨v, hwf, hmap, hread, hok, w, hw, by simpa using hw'⟩
  refine ⟨v, ⟨hwf.of_agree fun w hw => (skipTable_eq (hnone w hw)).symm, hmap, ?_⟩, hread, hcut⟩
  rintro pair hpair
  refine ⟨hok pair hpair, ?_⟩
  rintro ⟨-, w, hw, hwext⟩
  have hpart := parts_of_mem_elements (mem_of_mem_pairsOf hpair) hw
  rw [hnone w hpart] at hwext
  cases hwext

/-- **Which incomplete bodies are accepted.** Those that lack a required field, and those that
end inside a last value that is skipped, are; and there are no others, but for bodies with an
extension in a value that is skipped. -/
theorem decode_tick_accepts_incomplete (body : List UInt8) (out : TickMsg) :
    (¬ MeetsExt body ∧ ¬ LacksRequired body ∧ ¬ CutShort body →
        (decodeTick body out).1 = true → Complete body) ∧
      (((decodeTick body out).1 = true → Complete body) →
        ¬ LacksRequired body ∧ ¬ CutShort body) := by
  refine ⟨?_, fun hcomplete => ⟨?_, ?_⟩⟩
  · rintro ⟨hext, hlacks, hcut⟩ haccepted
    obtain ⟨v, hreadable, hread, hlast⟩ := readable_of_decoded hext haccepted
    have hinside := hread.inside
    rw [Nat.zero_add] at hinside
    by_cases hlong : body.length < v.bytes.length
    · exact absurd ⟨v, hreadable, body_prefix_of_agrees hread.agrees (by omega), hlong, hinside,
        hlast hlong⟩ hcut
    · have hprefix := prefix_of_agrees hread.agrees (by omega)
      by_cases hrequired : HasRequired v
      · exact ⟨v, hreadable.1, hreadable.2.1, hprefix, hrequired⟩
      · exact absurd ⟨v, hreadable, hprefix, hrequired⟩ hlacks
  · rintro ⟨v, ⟨hwf, hmap, hok⟩, hprefix, hrequired⟩
    have hread : Reads body 0 v :=
      ⟨agrees_of_front (.inl hprefix), by have := hprefix.length_le; omega⟩
    have haccepted := decoded_of_reads hwf hmap hread hok
      (fun hlong => absurd hprefix.length_le (by omega)) out
    obtain ⟨w, hwwf, -, ⟨rest, hw⟩, hwrequired⟩ := hcomplete haccepted
    obtain ⟨rest', hv⟩ := hprefix
    -- the body starts with one map only
    obtain ⟨rfl, -⟩ := bytes_unambiguous hwf hwwf (hv.trans hw.symm)
    exact hrequired hwrequired
  · rintro ⟨v, ⟨hwf, hmap, hok⟩, hprefix, hlong, hslack, hlast⟩
    have hread : Reads body 0 v := ⟨agrees_of_front (.inr hprefix), by omega⟩
    have haccepted := decoded_of_reads hwf hmap hread hok (fun _ => hlast) out
    obtain ⟨w, hwwf, -, hwprefix, -⟩ := hcomplete haccepted
    have hwread : Reads body 0 w :=
      ⟨agrees_of_front (.inl hwprefix), by have := hwprefix.length_le; omega⟩
    -- a walk of the format ends behind the body by the one map, and inside it by the other
    have hend := walk_of_reads hwf hread (show body.length ≤ 0 + body.length by omega)
    have hwend := walk_of_reads hwwf hwread (show body.length ≤ 0 + body.length by omega)
    have hsame := Option.some.inj (hend.symm.trans hwend)
    have hwinside := hwprefix.length_le
    omega

/-- The tick that a caller passes in. -/
def freshTick : TickMsg :=
  { strike := 0, expiry := [], right := [], bid := none, ask := none, bidSize := none,
    askSize := none, tsNs := none, brokerRecvNs := none, depthBid0 := none, depthBid1 := none,
    depthAsk0 := none, depthAsk1 := none }

/-- An empty map is accepted. -/
theorem decode_tick_accepts_empty_map :
    ¬ ∀ (body : List UInt8) (out : TickMsg), (decodeTick body out).1 = true → Complete body := by
  intro hall
  obtain ⟨w, hwf, -, ⟨rest, hbytes⟩, hrequired⟩ := hall [0x80] freshTick (by decide +kernel)
  have hmap : WellFormed messagePack (.node 0x80 [] []) := by decide +kernel
  obtain ⟨rfl, -⟩ := bytes_unambiguous hmap hwf (x := []) (y := rest) hbytes.symm
  obtain ⟨⟨pair, hpair, -⟩, -⟩ := hrequired.1
  cases hpair

end Corsair.Ports.TickAcceptance
