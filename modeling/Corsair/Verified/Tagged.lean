import Corsair.Verified.BigEndian

/-!
# Formats with a tag in front

A value starts with a tag, and a table says what follows it: so many bytes, a length and
that many bytes, so many values, or a count and that many values.  `Datum` is the syntax of
a value, `WellFormed` says that a table allows it.

`walk` finds the end of a value and looks at nothing but tags, lengths and counts.  So it
finds an end also where the last bytes of the last leaf are cut off, and no more than that:
`Reads` says that a value stands in a buffer, apart from such bytes.

## Main results

* `walk_of_reads` — the end of a value that stands in the buffer is found.
* `reads_of_walk` — an end that is found is that of a value.
* `bytes_unambiguous` — a buffer starts with one value at most.
-/

namespace Corsair.Verified.Tagged

open Corsair.Verified.BigEndian

/-- What follows a tag. -/
inductive Shape
  /-- So many bytes. -/
  | atom (width : Nat)
  /-- A length of `k` bytes, and so many bytes more than it says. -/
  | sized (k extra : Nat)
  /-- So many values. -/
  | items (count : Nat)
  /-- A count of `k` bytes, and so many values for each. -/
  | sizedItems (k per : Nat)
  /-- The tag is not in use. -/
  | reserved
  deriving DecidableEq, Repr

/-- The syntax of a value: its tag, the length or the count, and what follows. -/
inductive Datum
  | leaf (tag : UInt8) (numeral payload : List UInt8)
  | node (tag : UInt8) (numeral : List UInt8) (elements : List Datum)

namespace Datum

def tag : Datum → UInt8
  | leaf tag _ _ => tag
  | node tag _ _ => tag

def elements : Datum → List Datum
  | leaf _ _ _ => []
  | node _ _ elements => elements

/-- The bytes of a leaf behind its length. -/
def payload : Datum → List UInt8
  | leaf _ _ payload => payload
  | node _ _ _ => []

mutual

/-- The encoding of a value. -/
def bytes : Datum → List UInt8
  | leaf tag numeral payload => tag :: (numeral ++ payload)
  | node tag numeral elements => tag :: (numeral ++ bytesAll elements)

def bytesAll : List Datum → List UInt8
  | [] => []
  | v :: vs => bytes v ++ bytesAll vs

end

mutual

/-- A value and the values in it. -/
def parts : Datum → List Datum
  | leaf tag numeral payload => [leaf tag numeral payload]
  | node tag numeral elements => node tag numeral elements :: partsAll elements

def partsAll : List Datum → List Datum
  | [] => []
  | v :: vs => parts v ++ partsAll vs

end

mutual

/-- How many of the last bytes are neither tag nor length nor count. -/
def slack : Datum → Nat
  | leaf _ _ payload => payload.length
  | node _ _ elements => slackAll elements

def slackAll : List Datum → Nat
  | [] => 0
  | v :: vs => if vs.isEmpty then slack v else slackAll vs

end

/-- Induction over a value, with the claim for its elements. -/
@[elab_as_elim]
theorem induct {P : Datum → Prop} (leaf : ∀ tag numeral payload, P (leaf tag numeral payload))
    (node : ∀ tag numeral elements, (∀ v ∈ elements, P v) → P (node tag numeral elements))
    (v : Datum) : P v := by
  refine Datum.rec (motive_1 := P) (motive_2 := fun vs => ∀ v ∈ vs, P v) leaf node ?_ ?_ v
  · intro v hv
    cases hv
  · intro v vs hv hvs
    exact List.forall_mem_cons.mpr ⟨hv, hvs⟩

theorem getElem?_bytes_zero (v : Datum) : v.bytes[0]? = some v.tag := by
  cases v <;> rfl

theorem self_mem_parts (v : Datum) : v ∈ v.parts := by
  cases v with
  | leaf tag numeral payload => exact List.mem_singleton.mpr rfl
  | node tag numeral elements => exact List.mem_cons_self

theorem mem_partsAll {w : Datum} {vs : List Datum} : w ∈ partsAll vs ↔ ∃ v ∈ vs, w ∈ v.parts := by
  induction vs with
  | nil => simp [partsAll]
  | cons v vs ih => simp [partsAll, ih]

/-- A part of a part is a part. -/
theorem parts_trans {u v w : Datum} (hu : u ∈ v.parts) (hv : v ∈ w.parts) : u ∈ w.parts := by
  induction w using induct with
  | leaf tag numeral payload =>
      obtain rfl := List.mem_singleton.mp hv
      exact hu
  | node tag numeral elements ih =>
      rcases List.mem_cons.mp hv with rfl | hv
      · exact hu
      · obtain ⟨x, hx, hvx⟩ := mem_partsAll.mp hv
        exact List.mem_cons_of_mem _ (mem_partsAll.mpr ⟨x, hx, ih x hx hvx⟩)

theorem parts_of_element {tag : UInt8} {numeral : List UInt8} {elements : List Datum} {v w : Datum}
    (hv : v ∈ elements) (hw : w ∈ v.parts) : w ∈ (node tag numeral elements).parts :=
  List.mem_cons_of_mem _ (mem_partsAll.mpr ⟨v, hv, hw⟩)

/-- The tag of a value is not among the bytes that may be cut off. -/
theorem slack_lt (v : Datum) : v.slack < v.bytes.length := by
  have hall (vs : List Datum) (h : ∀ v ∈ vs, v.slack < v.bytes.length) :
      slackAll vs ≤ (bytesAll vs).length := by
    induction vs with
    | nil => exact Nat.le_refl 0
    | cons v vs ih =>
        rw [List.forall_mem_cons] at h
        have hrest := ih h.2
        rw [slackAll, bytesAll, List.length_append]
        split <;> omega
  induction v using induct with
  | leaf tag numeral payload =>
      rw [slack, bytes, List.length_cons, List.length_append]
      omega
  | node tag numeral elements ih =>
      have hslack := hall elements ih
      rw [slack, bytes, List.length_cons, List.length_append]
      omega

theorem slackAll_le (vs : List Datum) : slackAll vs ≤ (bytesAll vs).length := by
  have hnode := slack_lt (node 0 [] vs)
  rw [slack, bytes, List.length_cons, List.nil_append] at hnode
  omega

end Datum

open Datum

/-! ## Tables -/

/-- A fact about all tags is checked on each of them. -/
theorem forall_tag {P : UInt8 → Prop} (h : ∀ n : Fin 256, P (UInt8.ofNat n)) (tag : UInt8) :
    P tag := by
  have htag := h ⟨tag.toNat, tag.toNat_lt⟩
  simp only [UInt8.ofNat_toNat] at htag
  exact htag

/-- What each tag is followed by. -/
abbrev Table := UInt8 → Shape

/-- A value has the shape: its length or count is as long as the shape says, and says how much
follows. -/
def Shape.Fits : Shape → Datum → Prop
  | .atom width, .leaf _ numeral payload => numeral = [] ∧ payload.length = width
  | .sized k extra, .leaf _ numeral payload =>
      numeral.length = k ∧ payload.length = extra + ofBytes numeral
  | .items count, .node _ numeral elements => numeral = [] ∧ elements.length = count
  | .sizedItems k per, .node _ numeral elements =>
      numeral.length = k ∧ elements.length = ofBytes numeral * per
  | _, _ => False

instance (shape : Shape) (v : Datum) : Decidable (shape.Fits v) := by
  unfold Shape.Fits
  split <;> infer_instance

/-- A table allows the tag of a value. -/
def Fits (t : Table) (v : Datum) : Prop := (t v.tag).Fits v

instance (t : Table) (v : Datum) : Decidable (Fits t v) :=
  inferInstanceAs (Decidable ((t v.tag).Fits v))

theorem fits_leaf {t : Table} {tag : UInt8} {numeral payload : List UInt8} :
    Fits t (.leaf tag numeral payload) ↔
      (t tag = .atom payload.length ∧ numeral = []) ∨
        ∃ extra, t tag = .sized numeral.length extra ∧
          payload.length = extra + ofBytes numeral := by
  unfold Fits Shape.Fits
  cases h : t tag <;> simp [Datum.tag, h] <;> grind

theorem fits_node {t : Table} {tag : UInt8} {numeral : List UInt8} {elements : List Datum} :
    Fits t (.node tag numeral elements) ↔
      (t tag = .items elements.length ∧ numeral = []) ∨
        ∃ per, t tag = .sizedItems numeral.length per ∧
          elements.length = ofBytes numeral * per := by
  unfold Fits Shape.Fits
  cases h : t tag <;> simp [Datum.tag, h] <;> grind

/-- A table allows a value and the values in it. -/
def WellFormed (t : Table) (v : Datum) : Prop := ∀ w ∈ v.parts, Fits t w

instance (t : Table) (v : Datum) : Decidable (WellFormed t v) :=
  inferInstanceAs (Decidable (∀ w ∈ v.parts, Fits t w))

theorem WellFormed.element {t : Table} {tag : UInt8} {numeral : List UInt8} {elements : List Datum}
    (h : WellFormed t (.node tag numeral elements)) {v : Datum} (hv : v ∈ elements) :
    WellFormed t v :=
  fun _ hw => h _ (parts_of_element hv hw)

/-- A node is well-formed if its tag is allowed and its elements are. -/
theorem wellFormed_node {t : Table} {tag : UInt8} {numeral : List UInt8} {elements : List Datum}
    (htag : Fits t (.node tag numeral elements)) (h : ∀ v ∈ elements, WellFormed t v) :
    WellFormed t (.node tag numeral elements) := by
  intro w hw
  rcases List.mem_cons.mp hw with rfl | hw
  · exact htag
  · obtain ⟨v, hv, hwv⟩ := mem_partsAll.mp hw
    exact h v hv w hwv

theorem wellFormed_leaf {t : Table} {tag : UInt8} {numeral payload : List UInt8}
    (htag : Fits t (.leaf tag numeral payload)) : WellFormed t (.leaf tag numeral payload) := by
  intro w hw
  obtain rfl := List.mem_singleton.mp hw
  exact htag

theorem length_bytes_of_atom {t : Table} {v : Datum} (h : Fits t v) {width : Nat}
    (hshape : t v.tag = .atom width) : v.bytes.length = width + 1 := by
  unfold Fits at h
  rw [hshape] at h
  cases v with
  | leaf tag numeral payload =>
      obtain ⟨rfl, rfl⟩ := h
      simp [bytes]
  | node tag numeral elements => cases h

theorem not_fits_reserved {t : Table} {v : Datum} (hshape : t v.tag = .reserved) : ¬ Fits t v := by
  unfold Fits
  rw [hshape]
  cases v <;> exact id

/-- Two tables that agree on the tags in a value allow it alike. -/
theorem WellFormed.of_agree {t t' : Table} {v : Datum} (h : WellFormed t v)
    (hagree : ∀ w ∈ v.parts, t' w.tag = t w.tag) : WellFormed t' v := by
  intro w hw
  rw [Fits, hagree w hw]
  exact h w hw

/-! ## The walk -/

/-- `k` bytes of the buffer from `p` on. -/
def slice (body : List UInt8) (p k : Nat) : Option (List UInt8) :=
  if p + k ≤ body.length then some ((body.drop p).take k) else none

/-- A step from position to position, `n` times. -/
def iterate (f : Nat → Option Nat) : Nat → Nat → Option Nat
  | 0, p => some p
  | n + 1, p => (f p).bind (iterate f n)

/-- The end of a value of the given shape with its tag at `p`; `step` finds the ends of the
values in it. -/
def follow (step : Nat → Option Nat) (body : List UInt8) (p : Nat) : Shape → Option Nat
  | .atom width => some (p + 1 + width)
  | .sized k extra =>
      (slice body (p + 1) k).map fun numeral => p + 1 + k + (extra + ofBytes numeral)
  | .items count => iterate step count (p + 1)
  | .sizedItems k per =>
      (slice body (p + 1) k).bind fun numeral => iterate step (ofBytes numeral * per) (p + 1 + k)
  | .reserved => none

/-- The end of the value at `p`; `level` bounds how deep the values in it lie. -/
def walk (t : Table) (body : List UInt8) : Nat → Nat → Option Nat
  | 0, _ => none
  | level + 1, p => body[p]?.bind fun tag => follow (walk t body level) body p (t tag)

/-! ## What stands in a buffer -/

/-- The bytes stand in the buffer from `p` on, as far as the buffer goes. -/
def Agrees (body : List UInt8) (p : Nat) (bytes : List UInt8) : Prop :=
  ∀ i, i < bytes.length → p + i < body.length → body[p + i]? = bytes[i]?

theorem agrees_append {body front back : List UInt8} {p : Nat} :
    Agrees body p (front ++ back) ↔
      Agrees body p front ∧ Agrees body (p + front.length) back := by
  constructor
  · intro h
    constructor
    · intro i hi hp
      rw [h i (by rw [List.length_append]; omega) hp, List.getElem?_append_left hi]
    · intro i hi hp
      have hback := h (front.length + i) (by rw [List.length_append]; omega) (by omega)
      rw [Nat.add_assoc, hback, List.getElem?_append_right (by omega), Nat.add_sub_cancel_left]
  · rintro ⟨hfront, hback⟩ i hi hp
    by_cases hlt : i < front.length
    · rw [hfront i hlt hp, List.getElem?_append_left hlt]
    · rw [List.length_append] at hi
      have h := hback (i - front.length) (by omega) (by omega)
      rw [Nat.add_assoc, Nat.add_sub_cancel' (by omega)] at h
      rw [h, List.getElem?_append_right (by omega)]

theorem agrees_cons {body bytes : List UInt8} {p : Nat} {tag : UInt8} (hp : p < body.length) :
    Agrees body p (tag :: bytes) ↔ body[p]? = some tag ∧ Agrees body (p + 1) bytes := by
  rw [← List.singleton_append, agrees_append]
  refine and_congr_left' ⟨fun h => h 0 (by simp) hp, fun h i hi _ => ?_⟩
  obtain rfl : i = 0 := by simpa using hi
  exact h

/-- Bytes that the buffer holds all of. -/
theorem slice_of_agrees {body bytes : List UInt8} {p : Nat} (h : Agrees body p bytes)
    (hp : p + bytes.length ≤ body.length) : slice body p bytes.length = some bytes := by
  rw [slice, if_pos hp]
  congr 1
  refine List.ext_getElem? fun i => ?_
  by_cases hi : i < bytes.length
  · rw [List.getElem?_take_of_lt hi, List.getElem?_drop, h i hi (by omega)]
  · rw [List.getElem?_eq_none (by simp; omega), List.getElem?_eq_none (by omega)]

theorem agrees_of_slice {body bytes : List UInt8} {p k : Nat} (h : slice body p k = some bytes) :
    Agrees body p bytes ∧ bytes.length = k ∧ p + k ≤ body.length := by
  unfold slice at h
  split at h
  · rename_i hp
    obtain rfl := Option.some.inj h
    refine ⟨fun i hi _ => ?_, by simp; omega, hp⟩
    rw [List.length_take] at hi
    rw [List.getElem?_take_of_lt (by omega), List.getElem?_drop]
  · cases h

/-- There are bytes of every length that stand from `p` on. -/
theorem exists_agrees (body : List UInt8) (p width : Nat) :
    ∃ bytes : List UInt8, bytes.length = width ∧ Agrees body p bytes := by
  refine ⟨(List.range width).map fun i => body[p + i]?.getD 0, by simp, fun i hi hp => ?_⟩
  have hi' : i < width := by simpa using hi
  rw [List.getElem?_map, List.getElem?_range hi']
  simp [List.getElem?_eq_getElem hp]

/-- A value stands in the buffer from `p` on; only bytes that are neither tag nor length nor
count may be cut off. -/
structure Reads (body : List UInt8) (p : Nat) (v : Datum) : Prop where
  agrees : Agrees body p v.bytes
  inside : p + v.bytes.length ≤ body.length + v.slack

/-- Values stand in the buffer one behind the other. -/
structure ReadsAll (body : List UInt8) (p : Nat) (vs : List Datum) : Prop where
  agrees : Agrees body p (bytesAll vs)
  inside : p + (bytesAll vs).length ≤ body.length + slackAll vs

theorem Reads.lt {body : List UInt8} {p : Nat} {v : Datum} (h : Reads body p v) :
    p < body.length := by
  have hinside := h.inside
  have hslack := slack_lt v
  omega

theorem ReadsAll.head {body : List UInt8} {p : Nat} {v : Datum} {vs : List Datum}
    (h : ReadsAll body p (v :: vs)) : Reads body p v := by
  obtain ⟨hagrees, hinside⟩ := h
  rw [bytesAll, agrees_append] at hagrees
  rw [bytesAll, List.length_append, slackAll] at hinside
  refine ⟨hagrees.1, ?_⟩
  have hrest := slackAll_le vs
  cases vs with
  | nil => simpa [bytesAll] using hinside
  | cons w vs =>
      rw [List.isEmpty_cons, if_neg Bool.false_ne_true] at hinside
      omega

theorem ReadsAll.tail {body : List UInt8} {p : Nat} {v w : Datum} {vs : List Datum}
    (h : ReadsAll body p (v :: w :: vs)) : ReadsAll body (p + v.bytes.length) (w :: vs) := by
  obtain ⟨hagrees, hinside⟩ := h
  rw [bytesAll, agrees_append] at hagrees
  rw [bytesAll, List.length_append, slackAll, List.isEmpty_cons, if_neg Bool.false_ne_true]
    at hinside
  exact ⟨hagrees.2, by omega⟩

theorem readsAll_singleton {body : List UInt8} {p : Nat} {v : Datum} (h : Reads body p v) :
    ReadsAll body p [v] := by
  refine ⟨?_, ?_⟩
  · rw [bytesAll, bytesAll, List.append_nil]
    exact h.agrees
  · simpa [bytesAll, slackAll] using h.inside

theorem readsAll_cons {body : List UInt8} {p : Nat} {v w : Datum} {vs : List Datum}
    (hv : Reads body p v) (hvs : ReadsAll body (p + v.bytes.length) (w :: vs)) :
    ReadsAll body p (v :: w :: vs) := by
  refine ⟨?_, ?_⟩
  · rw [bytesAll, agrees_append]
    exact ⟨hv.agrees, hvs.agrees⟩
  · rw [bytesAll, List.length_append, slackAll, List.isEmpty_cons, if_neg Bool.false_ne_true,
      ← Nat.add_assoc]
    exact hvs.inside

/-! ## The walk finds the end -/

/-- A step that finds the end of each of the values, as often as there are values. -/
theorem iterate_of_reads {f : Nat → Option Nat} {body : List UInt8} {vs : List Datum} {p : Nat}
    (hf : ∀ v ∈ vs, ∀ q, p ≤ q → Reads body q v → f q = some (q + v.bytes.length))
    (h : ReadsAll body p vs) : iterate f vs.length p = some (p + (bytesAll vs).length) := by
  induction vs generalizing p with
  | nil => rfl
  | cons v vs ih =>
      rw [List.forall_mem_cons] at hf
      have hstep := hf.1 p (Nat.le_refl p) h.head
      rw [List.length_cons, iterate, hstep, Option.bind_some, bytesAll, List.length_append]
      cases vs with
      | nil => simp [iterate, bytesAll]
      | cons w vs =>
          have hrest : ∀ x ∈ w :: vs, ∀ q, p + v.bytes.length ≤ q → Reads body q x →
              f q = some (q + x.bytes.length) :=
            fun x hx q hq => hf.2 x hx q (by omega)
          rw [ih hrest h.tail, Nat.add_assoc]

/-- **The end of a value is found.** -/
theorem walk_of_reads {t : Table} {body : List UInt8} {v : Datum} (hwf : WellFormed t v)
    {p level : Nat} (h : Reads body p v) (hlevel : body.length ≤ p + level) :
    walk t body level p = some (p + v.bytes.length) := by
  induction v using induct generalizing p level with
  | leaf tag numeral payload =>
      have hp := h.lt
      obtain ⟨level, rfl⟩ := Nat.exists_eq_succ_of_ne_zero (show level ≠ 0 by omega)
      obtain ⟨hagrees, hinside⟩ := h
      rw [bytes, agrees_cons hp, agrees_append] at hagrees
      obtain ⟨htag, hnumeral, -⟩ := hagrees
      rw [bytes, List.length_cons, List.length_append, slack] at hinside
      rw [walk, htag, Option.bind_some, bytes, List.length_cons, List.length_append]
      rcases fits_leaf.mp (hwf _ (self_mem_parts _)) with ⟨hshape, rfl⟩ | ⟨extra, hshape, hsize⟩
      · simp only [hshape, follow, List.length_nil]
        congr 1
        omega
      · have hslice := slice_of_agrees hnumeral (by omega)
        simp only [hshape, follow, hslice, Option.map_some]
        congr 1
        omega
  | node tag numeral elements ih =>
      have hp := h.lt
      obtain ⟨level, rfl⟩ := Nat.exists_eq_succ_of_ne_zero (show level ≠ 0 by omega)
      obtain ⟨hagrees, hinside⟩ := h
      rw [bytes, agrees_cons hp, agrees_append] at hagrees
      obtain ⟨htag, hnumeral, helements⟩ := hagrees
      rw [bytes, List.length_cons, List.length_append, slack] at hinside
      have hslack := slackAll_le elements
      have hall : ReadsAll body (p + 1 + numeral.length) elements := ⟨helements, by omega⟩
      have hwalk := iterate_of_reads (f := walk t body level) (fun v hv q hq hread =>
        ih v hv (hwf.element hv) hread (by omega)) hall
      rw [walk, htag, Option.bind_some, bytes, List.length_cons, List.length_append]
      rcases fits_node.mp (hwf _ (self_mem_parts _)) with ⟨hshape, rfl⟩ | ⟨per, hshape, hcount⟩
      · simp only [hshape, follow]
        rw [List.length_nil, Nat.add_zero] at hwalk
        rw [hwalk, List.length_nil]
        congr 1
        omega
      · have hslice := slice_of_agrees hnumeral (by omega)
        simp only [hshape, follow, hslice, Option.bind_some]
        rw [← hcount, hwalk]
        congr 1
        omega

theorem lt_of_walk {t : Table} {body : List UInt8} {level p e : Nat}
    (h : walk t body level p = some e) : p < body.length := by
  cases level with
  | zero => cases h
  | succ level =>
      by_contra hp
      rw [walk, List.getElem?_eq_none (by omega)] at h
      cases h

/-- Ends that are found one after the other are those of values. -/
theorem readsAll_of_iterate {t : Table} {body : List UInt8} {level : Nat}
    (hstep : ∀ p e, walk t body level p = some e →
      ∃ v, WellFormed t v ∧ Reads body p v ∧ e = p + v.bytes.length)
    {n p e : Nat} (hp : p ≤ body.length) (h : iterate (walk t body level) n p = some e) :
    ∃ vs, vs.length = n ∧ (∀ v ∈ vs, WellFormed t v) ∧ ReadsAll body p vs ∧
      e = p + (bytesAll vs).length := by
  induction n generalizing p with
  | zero =>
      obtain rfl := Option.some.inj h
      exact ⟨[], rfl, by simp, ⟨by simp [Agrees, bytesAll], by simpa [bytesAll, slackAll] using hp⟩,
        by simp [bytesAll]⟩
  | succ n ih =>
      obtain ⟨q, hq, hrest⟩ := Option.bind_eq_some_iff.mp h
      obtain ⟨v, hwf, hread, rfl⟩ := hstep p q hq
      cases n with
      | zero =>
          obtain rfl := Option.some.inj hrest
          exact ⟨[v], rfl, by simpa using hwf, readsAll_singleton hread, by simp [bytesAll]⟩
      | succ n =>
          -- another value starts behind this one, so nothing of this one is cut off
          obtain ⟨_, hnext, _⟩ := Option.bind_eq_some_iff.mp hrest
          obtain ⟨vs, hlength, hall, hreads, hend⟩ := ih (Nat.le_of_lt (lt_of_walk hnext)) hrest
          cases vs with
          | nil => cases hlength
          | cons w vs =>
              refine ⟨v :: w :: vs, by rw [List.length_cons, hlength],
                List.forall_mem_cons.mpr ⟨hwf, hall⟩, readsAll_cons hread hreads, ?_⟩
              rw [hend, Nat.add_assoc, ← List.length_append]
              rfl

/-- **An end that is found is that of a value.** -/
theorem reads_of_walk {t : Table} {body : List UInt8} {level p e : Nat}
    (h : walk t body level p = some e) :
    ∃ v, WellFormed t v ∧ Reads body p v ∧ e = p + v.bytes.length := by
  induction level generalizing p e with
  | zero => cases h
  | succ level ih =>
      have hp := lt_of_walk h
      rw [walk] at h
      obtain ⟨tag, htag, h⟩ := Option.bind_eq_some_iff.mp h
      unfold follow at h
      split at h
      · rename_i width hshape
        obtain ⟨payload, hwidth, hpayload⟩ := exists_agrees body (p + 1) width
        refine ⟨.leaf tag [] payload, wellFormed_leaf (fits_leaf.mpr (.inl ⟨?_, rfl⟩)),
          ⟨(agrees_cons hp).mpr ⟨htag, hpayload⟩, ?_⟩, ?_⟩
        · rw [hshape, hwidth]
        · simp only [bytes, slack, List.nil_append, List.length_cons]
          omega
        · obtain rfl := Option.some.inj h
          simp only [bytes, List.nil_append, List.length_cons]
          omega
      · rename_i k extra hshape
        obtain ⟨numeral, hslice, h⟩ := Option.map_eq_some_iff.mp h
        obtain ⟨hnumeral, hk, hinside⟩ := agrees_of_slice hslice
        obtain ⟨payload, hwidth, hpayload⟩ :=
          exists_agrees body (p + 1 + numeral.length) (extra + ofBytes numeral)
        refine ⟨.leaf tag numeral payload,
          wellFormed_leaf (fits_leaf.mpr (.inr ⟨extra, by rw [hshape, hk], hwidth⟩)),
          ⟨(agrees_cons hp).mpr ⟨htag, agrees_append.mpr ⟨hnumeral, hpayload⟩⟩, ?_⟩, ?_⟩
        · simp only [bytes, slack, List.length_cons, List.length_append]
          omega
        · simp only [bytes, List.length_cons, List.length_append]
          omega
      · rename_i count hshape
        obtain ⟨vs, hlength, hwf, ⟨hagrees, hinside⟩, hend⟩ :=
          readsAll_of_iterate (fun p e => ih) hp h
        refine ⟨.node tag [] vs,
          wellFormed_node (fits_node.mpr (.inl ⟨by rw [hshape, hlength], rfl⟩)) hwf,
          ⟨(agrees_cons hp).mpr ⟨htag, hagrees⟩, ?_⟩, ?_⟩
        · simp only [bytes, slack, List.nil_append, List.length_cons]
          omega
        · simp only [bytes, List.nil_append, List.length_cons]
          omega
      · rename_i k per hshape
        obtain ⟨numeral, hslice, h⟩ := Option.bind_eq_some_iff.mp h
        obtain ⟨hnumeral, rfl, hinside'⟩ := agrees_of_slice hslice
        obtain ⟨vs, hlength, hwf, ⟨hagrees, hinside⟩, hend⟩ :=
          readsAll_of_iterate (fun p e => ih) hinside' h
        refine ⟨.node tag numeral vs,
          wellFormed_node (fits_node.mpr (.inr ⟨per, hshape, hlength⟩)) hwf,
          ⟨(agrees_cons hp).mpr ⟨htag, agrees_append.mpr ⟨hnumeral, hagrees⟩⟩, ?_⟩, ?_⟩
        · simp only [bytes, slack, List.length_cons, List.length_append]
          omega
        · simp only [bytes, List.length_cons, List.length_append]
          omega
      · cases h

theorem Reads.tag {body : List UInt8} {p : Nat} {v : Datum} (h : Reads body p v) :
    body[p]? = some v.tag := by
  have hslack := slack_lt v
  have hhead := h.agrees 0 (by omega) h.lt
  rwa [Nat.add_zero, getElem?_bytes_zero] at hhead

/-- A value that stands in the buffer whole. -/
theorem reads_of_append (pre : List UInt8) (v : Datum) (rest : List UInt8) :
    Reads (pre ++ (v.bytes ++ rest)) pre.length v := by
  constructor
  · intro i hi _
    rw [List.getElem?_append_right (by omega), Nat.add_sub_cancel_left,
      List.getElem?_append_left hi]
  · simp only [List.length_append]
    omega

/-- Levels that are not needed make no difference. -/
theorem walk_level {t : Table} {body : List UInt8} {p level level' : Nat}
    (h : body.length ≤ p + level) (h' : body.length ≤ p + level') :
    walk t body level p = walk t body level' p := by
  refine Option.ext fun e => ?_
  constructor
  · intro hwalk
    obtain ⟨v, hwf, hread, rfl⟩ := reads_of_walk hwalk
    exact walk_of_reads hwf hread h'
  · intro hwalk
    obtain ⟨v, hwf, hread, rfl⟩ := reads_of_walk hwalk
    exact walk_of_reads hwf hread h

theorem iterate_congr {f g : Nat → Option Nat} {p : Nat} (h : ∀ q, p ≤ q → f q = g q)
    (hmono : ∀ q e, f q = some e → q ≤ e) (n : Nat) : iterate f n p = iterate g n p := by
  induction n generalizing p with
  | zero => rfl
  | succ n ih =>
      rw [iterate, iterate, ← h p (Nat.le_refl p)]
      cases hp : f p with
      | none => rfl
      | some e =>
          have hle := hmono p e hp
          exact ih fun q hq => h q (by omega)

/-- With levels enough, the walk goes into a value with as many of them. -/
theorem walk_eq {t : Table} {body : List UInt8} {p level : Nat} (h : body.length ≤ p + level) :
    walk t body level p =
      body[p]?.bind fun tag => follow (walk t body level) body p (t tag) := by
  cases level with
  | zero =>
      rw [List.getElem?_eq_none (by omega)]
      rfl
  | succ level =>
      have hstep (q : Nat) (hq : p + 1 ≤ q) : walk t body level q = walk t body (level + 1) q :=
        walk_level (by omega) (by omega)
      have hmono (q e : Nat) (hwalk : walk t body level q = some e) : q ≤ e := by
        obtain ⟨v, -, -, rfl⟩ := reads_of_walk hwalk
        omega
      have hiterate (n q : Nat) (hq : p + 1 ≤ q) :
          iterate (walk t body level) n q = iterate (walk t body (level + 1)) n q :=
        iterate_congr (fun q' hq' => hstep q' (by omega)) hmono n
      rw [walk]
      congr 1
      funext tag
      cases t tag with
      | atom width => rfl
      | sized k extra => rfl
      | items count => exact hiterate count (p + 1) (Nat.le_refl _)
      | sizedItems k per =>
          simp only [follow]
          congr 1
          funext numeral
          exact hiterate _ (p + 1 + k) (by omega)
      | reserved => rfl

theorem slice_one (body : List UInt8) (p : Nat) : slice body p 1 = body[p]?.map fun b => [b] := by
  unfold slice
  split
  · rename_i hp
    rw [List.getElem?_eq_getElem (by omega), Option.map_some,
      List.drop_eq_getElem_cons (by omega)]
    rfl
  · rw [List.getElem?_eq_none (by omega)]
    rfl

/-! ## A buffer starts with one value at most -/

theorem bytesAll_unambiguous {t : Table} {vs ws : List Datum}
    (hvs : ∀ v ∈ vs, ∀ w x y, WellFormed t w → v.bytes ++ x = w.bytes ++ y → v = w ∧ x = y)
    (hws : ∀ w ∈ ws, WellFormed t w) (hlength : vs.length = ws.length) {x y : List UInt8}
    (h : bytesAll vs ++ x = bytesAll ws ++ y) : vs = ws ∧ x = y := by
  induction vs generalizing ws with
  | nil =>
      obtain rfl := List.length_eq_zero_iff.mp hlength.symm
      exact ⟨rfl, h⟩
  | cons v vs ih =>
      cases ws with
      | nil => cases hlength
      | cons w ws =>
          rw [List.forall_mem_cons] at hvs hws
          rw [bytesAll, bytesAll, List.append_assoc, List.append_assoc] at h
          obtain ⟨rfl, hrest⟩ := hvs.1 w _ _ hws.1 h
          obtain ⟨rfl, hxy⟩ := ih hvs.2 hws.2 (Nat.succ.inj hlength) hrest
          exact ⟨rfl, hxy⟩

/-- **A buffer starts with one value at most.** -/
theorem bytes_unambiguous {t : Table} {v : Datum} (hv : WellFormed t v) {w : Datum}
    {x y : List UInt8} (hw : WellFormed t w) (h : v.bytes ++ x = w.bytes ++ y) : v = w ∧ x = y := by
  induction v using induct generalizing w x y with
  | leaf tag numeral payload =>
      have hfits := fits_leaf.mp (hv _ (self_mem_parts _))
      cases w with
      | leaf tag' numeral' payload' =>
          have hfits' := fits_leaf.mp (hw _ (self_mem_parts _))
          simp only [bytes, List.cons_append, List.append_assoc, List.cons.injEq] at h
          obtain ⟨rfl, h⟩ := h
          have hnumeral : numeral.length = numeral'.length := by
            rcases hfits with ⟨hshape, rfl⟩ | ⟨extra, hshape, -⟩ <;>
              rcases hfits' with ⟨hshape', rfl⟩ | ⟨extra', hshape', -⟩ <;>
              grind
          obtain ⟨rfl, hrest⟩ := List.append_inj h hnumeral
          have hpayload : payload.length = payload'.length := by
            rcases hfits with ⟨hshape, -⟩ | ⟨extra, hshape, hsize⟩ <;>
              rcases hfits' with ⟨hshape', -⟩ | ⟨extra', hshape', hsize'⟩ <;>
              grind
          obtain ⟨rfl, rfl⟩ := List.append_inj hrest hpayload
          exact ⟨rfl, rfl⟩
      | node tag' numeral' elements =>
          have hfits' := fits_node.mp (hw _ (self_mem_parts _))
          obtain ⟨rfl, -⟩ := List.cons.inj h
          grind
  | node tag numeral elements ih =>
      have hfits := fits_node.mp (hv _ (self_mem_parts _))
      cases w with
      | leaf tag' numeral' payload =>
          have hfits' := fits_leaf.mp (hw _ (self_mem_parts _))
          obtain ⟨rfl, -⟩ := List.cons.inj h
          grind
      | node tag' numeral' elements' =>
          have hfits' := fits_node.mp (hw _ (self_mem_parts _))
          simp only [bytes, List.cons_append, List.append_assoc, List.cons.injEq] at h
          obtain ⟨rfl, h⟩ := h
          have hnumeral : numeral.length = numeral'.length := by
            rcases hfits with ⟨hshape, rfl⟩ | ⟨per, hshape, -⟩ <;>
              rcases hfits' with ⟨hshape', rfl⟩ | ⟨per', hshape', -⟩ <;>
              grind
          obtain ⟨rfl, hrest⟩ := List.append_inj h hnumeral
          have hlength : elements.length = elements'.length := by
            rcases hfits with ⟨hshape, -⟩ | ⟨per, hshape, hcount⟩ <;>
              rcases hfits' with ⟨hshape', -⟩ | ⟨per', hshape', hcount'⟩ <;>
              grind
          obtain ⟨rfl, rfl⟩ := bytesAll_unambiguous
            (fun v hmem w x y hw h => ih v hmem (hv.element hmem) hw h)
            (fun w hmem => hw.element hmem) hlength hrest
          exact ⟨rfl, rfl⟩

/-! ## MessagePack -/

/-- The table of MessagePack. -/
def messagePack : Table := fun tag =>
  if tag ≤ 0x7f then .atom 0                                   -- positive fixint
  else if tag ≤ 0x8f then .items (2 * (tag &&& 0x0f).toNat)    -- fixmap
  else if tag ≤ 0x9f then .items (tag &&& 0x0f).toNat          -- fixarray
  else if tag ≤ 0xbf then .atom (tag &&& 0x1f).toNat           -- fixstr
  else if tag = 0xc0 then .atom 0                              -- nil
  else if tag = 0xc1 then .reserved
  else if tag = 0xc2 then .atom 0                              -- false
  else if tag = 0xc3 then .atom 0                              -- true
  else if tag = 0xc4 then .sized 1 0                           -- bin 8, 16, 32
  else if tag = 0xc5 then .sized 2 0
  else if tag = 0xc6 then .sized 4 0
  else if tag = 0xc7 then .sized 1 1                           -- ext 8, 16, 32: a type first
  else if tag = 0xc8 then .sized 2 1
  else if tag = 0xc9 then .sized 4 1
  else if tag = 0xca then .atom 4                              -- float 32, 64
  else if tag = 0xcb then .atom 8
  else if tag = 0xcc then .atom 1                              -- uint 8, 16, 32, 64
  else if tag = 0xcd then .atom 2
  else if tag = 0xce then .atom 4
  else if tag = 0xcf then .atom 8
  else if tag = 0xd0 then .atom 1                              -- int 8, 16, 32, 64
  else if tag = 0xd1 then .atom 2
  else if tag = 0xd2 then .atom 4
  else if tag = 0xd3 then .atom 8
  else if tag = 0xd4 then .atom 2                              -- fixext 1 to 16: a type first
  else if tag = 0xd5 then .atom 3
  else if tag = 0xd6 then .atom 5
  else if tag = 0xd7 then .atom 9
  else if tag = 0xd8 then .atom 17
  else if tag = 0xd9 then .sized 1 0                           -- str 8, 16, 32
  else if tag = 0xda then .sized 2 0
  else if tag = 0xdb then .sized 4 0
  else if tag = 0xdc then .sizedItems 2 1                      -- array 16, 32
  else if tag = 0xdd then .sizedItems 4 1
  else if tag = 0xde then .sizedItems 2 2                      -- map 16, 32
  else if tag = 0xdf then .sizedItems 4 2
  else .atom 0                                                 -- negative fixint

end Corsair.Verified.Tagged
