import Mathlib.Data.List.Basic

/-!
# Circular stores with at most one wrap

A circular store is a flat list of cells that is addressed by an unbounded
offset: offset `j` lives in physical cell `j % data.length`.  Producers and
consumers never address the cells one by one.  They copy a contiguous block,
and a block that runs past the physical end is split into a *tail* piece at
the end of the store and a *head* piece at its start.

The block copies below are partial in the way the machine's slice operations
are: an index out of range, or a source of the wrong length, is `none`.  Each
of them has one specification in terms of `cell`, so that a proof about a
protocol over a circular store never sees the split.

## Main results

* `wrapWrite_spec` — a block of at most one revolution is stored without an
  index error; it is read back at its own offsets, and every offset of the
  revolution before it is left alone.
* `wrapRead_spec` — a block of at most one revolution is read without an index
  error and is the list of the cells at its offsets.
* `wrapWrite_append` — storing two adjacent blocks one after the other is
  storing their concatenation.
-/

namespace Corsair.Verified.Circular

variable {α : Type*}

/-! ## Slices of a flat list -/

/-- `data[lo..hi]` as a checked slice: `none` where the index range is not
inside the list. -/
def slice (data : List α) (lo hi : Nat) : Option (List α) :=
  if lo ≤ hi ∧ hi ≤ data.length then some ((data.take hi).drop lo) else none

/-- Overwrite `data[lo..hi]` with `src`: `none` where the range is not inside
the list, or `src` does not have the length of the range. -/
def copyFromSlice (data : List α) (lo hi : Nat) (src : List α) : Option (List α) :=
  if lo ≤ hi ∧ hi ≤ data.length ∧ src.length = hi - lo then
    some (data.take lo ++ src ++ data.drop hi)
  else none

private theorem getElem?_splice (data src : List α) (lo hi i : Nat)
    (hlo : lo ≤ hi) (hhi : hi ≤ data.length) (hsrc : src.length = hi - lo) :
    (data.take lo ++ src ++ data.drop hi)[i]? =
      if lo ≤ i ∧ i < hi then src[i - lo]? else data[i]? := by
  have htake : (data.take lo).length = lo := by
    rw [List.length_take]; omega
  by_cases h1 : i < lo
  · rw [if_neg (by omega), List.append_assoc,
      List.getElem?_append_left (by omega), List.getElem?_take_of_lt h1]
  · by_cases h2 : i < hi
    · rw [if_pos ⟨by omega, h2⟩, List.append_assoc,
        List.getElem?_append_right (by omega), htake,
        List.getElem?_append_left (by omega)]
    · rw [if_neg (by omega), List.getElem?_append_right (by simp; omega),
        List.getElem?_drop]
      congr 1
      simp only [List.length_append, htake, hsrc]
      omega

/-- A copy whose range is inside the list succeeds and changes exactly the
cells of the range. -/
theorem copyFromSlice_spec (data src : List α) (lo hi : Nat)
    (hlo : lo ≤ hi) (hhi : hi ≤ data.length) (hsrc : src.length = hi - lo) :
    ∃ out, copyFromSlice data lo hi src = some out ∧ out.length = data.length ∧
      ∀ i, out[i]? = if lo ≤ i ∧ i < hi then src[i - lo]? else data[i]? := by
  refine ⟨_, if_pos ⟨hlo, hhi, hsrc⟩, ?_, ?_⟩
  · simp only [List.length_append, List.length_take, List.length_drop, hsrc]
    omega
  · intro i
    exact getElem?_splice data src lo hi i hlo hhi hsrc

/-- A slice whose range is inside the list succeeds and lists the cells of the
range. -/
theorem slice_spec (data : List α) (lo hi : Nat)
    (hlo : lo ≤ hi) (hhi : hi ≤ data.length) :
    ∃ out, slice data lo hi = some out ∧ out.length = hi - lo ∧
      ∀ i, i < hi - lo → out[i]? = data[lo + i]? := by
  refine ⟨_, if_pos ⟨hlo, hhi⟩, ?_, ?_⟩
  · simp only [List.length_drop, List.length_take]
    omega
  · intro i hi'
    rw [List.getElem?_drop, List.getElem?_take_of_lt (by omega)]

/-! ## Block copies that wrap once -/

/-- Store the block `src` at physical position `pos`, wrapping to the start of
the store where it runs past the end. -/
def wrapWrite (data : List α) (pos : Nat) (src : List α) : Option (List α) :=
  let stop := pos + src.length
  if stop ≤ data.length then
    copyFromSlice data pos stop src
  else
    let tail := data.length - pos
    (copyFromSlice data pos data.length (src.take tail)).bind fun data' =>
      copyFromSlice data' 0 (src.length - tail) (src.drop tail)

/-- Read `avail` cells from physical position `pos`, wrapping to the start of
the store where they run past the end. -/
def wrapRead (data : List α) (pos avail : Nat) : Option (List α) :=
  let stop := pos + avail
  if stop ≤ data.length then
    slice data pos stop
  else
    let tail := data.length - pos
    let headLen := avail - tail
    (slice data pos data.length).bind fun back =>
      (slice data 0 headLen).map fun front => back ++ front

/-- A copy that succeeds keeps the length of the list. -/
theorem copyFromSlice_length {data out src : List α} {lo hi : Nat}
    (h : copyFromSlice data lo hi src = some out) : out.length = data.length := by
  unfold copyFromSlice at h
  split at h
  · rename_i hbounds
    cases h
    simp only [List.length_append, List.length_take, List.length_drop]
    omega
  · cases h

/-- A store that succeeds keeps the capacity. -/
theorem wrapWrite_length {data out src : List α} {pos : Nat}
    (h : wrapWrite data pos src = some out) : out.length = data.length := by
  simp only [wrapWrite] at h
  split at h
  · exact copyFromSlice_length h
  · rcases Option.bind_eq_some_iff.mp h with ⟨mid, hmid, hout⟩
    rw [copyFromSlice_length hout, copyFromSlice_length hmid]

/-- A load that succeeds has the length that was asked for. -/
theorem wrapRead_length {data out : List α} {pos avail : Nat}
    (h : wrapRead data pos avail = some out) : out.length = avail := by
  simp only [wrapRead, slice] at h
  split at h
  · split at h
    · cases h
      rw [List.length_drop, List.length_take]
      omega
    · cases h
  · rcases Option.bind_eq_some_iff.mp h with ⟨back, hback, h⟩
    rcases Option.map_eq_some_iff.mp h with ⟨front, hfront, rfl⟩
    split at hback <;> split at hfront
    · cases hback
      cases hfront
      simp only [List.length_append, List.length_drop, List.length_take]
      omega
    · cases hfront
    · cases hback
    · cases hback

/-- The cell that offset `j` addresses. -/
def cell (data : List α) (j : Nat) : Option α := data[j % data.length]?

/-- How far the physical cell `i` lies after position `pos`, going around. -/
def rank (cap pos i : Nat) : Nat :=
  if pos ≤ i then i - pos else i + cap - pos

/-- Going around once, every cell is `rank` steps after `pos`. -/
theorem mod_add_rank {cap i : Nat} (w : Nat) (hi : i < cap) :
    (w + rank cap (w % cap) i) % cap = i := by
  have hw : w % cap < cap := Nat.mod_lt w (by omega)
  rw [← Nat.mod_add_mod]
  unfold rank
  split
  · rw [show w % cap + (i - w % cap) = i by omega, Nat.mod_eq_of_lt hi]
  · rw [show w % cap + (i + cap - w % cap) = i + cap by omega,
      Nat.add_mod_right, Nat.mod_eq_of_lt hi]

/-- The offset `j` steps after `w` lies `j` steps after the cell of `w`. -/
theorem rank_mod_add {cap j : Nat} (w : Nat) (hj : j < cap) :
    rank cap (w % cap) ((w + j) % cap) = j := by
  have hw : w % cap < cap := Nat.mod_lt w (by omega)
  unfold rank
  rw [Nat.add_mod, Nat.mod_eq_of_lt hj]
  by_cases h : w % cap + j < cap
  · rw [Nat.mod_eq_of_lt h, if_pos (by omega)]
    omega
  · have hturn : (w % cap + j) % cap = w % cap + j - cap := by
      rw [Nat.mod_eq_sub_mod (by omega), Nat.mod_eq_of_lt (by omega)]
    rw [hturn, if_neg (by omega)]
    omega

theorem rank_lt {cap pos i : Nat} (hpos : pos < cap) (hi : i < cap) :
    rank cap pos i < cap := by
  unfold rank
  split <;> omega

/-- Physical picture of a wrapped store: the cells fewer than `src.length`
steps after `pos` hold the block, the others are untouched. -/
theorem wrapWrite_physical (data src : List α) (pos : Nat)
    (hpos : pos < data.length) (hsrc : src.length ≤ data.length) :
    ∃ out, wrapWrite data pos src = some out ∧ out.length = data.length ∧
      ∀ i, i < data.length → out[i]? =
        if rank data.length pos i < src.length then src[rank data.length pos i]?
        else data[i]? := by
  by_cases hstop : pos + src.length ≤ data.length
  · obtain ⟨out, hout, hlen, hget⟩ :=
      copyFromSlice_spec data src pos (pos + src.length)
        (by omega) hstop (by omega)
    refine ⟨out, ?_, hlen, ?_⟩
    · simp only [wrapWrite, if_pos hstop, hout]
    · intro i hi
      rw [hget i, rank]
      by_cases hin : pos ≤ i
      · rw [if_pos hin]
        by_cases hlt : i < pos + src.length
        · rw [if_pos ⟨hin, hlt⟩, if_pos (by omega)]
        · rw [if_neg (by omega), if_neg (by omega)]
      · rw [if_neg hin, if_neg (by omega), if_neg (by omega)]
  · obtain ⟨mid, hmid, hmlen, hmget⟩ :=
      copyFromSlice_spec data (src.take (data.length - pos)) pos data.length
        (by omega) (by omega) (by rw [List.length_take]; omega)
    obtain ⟨out, hout, hlen, hget⟩ :=
      copyFromSlice_spec mid (src.drop (data.length - pos)) 0
        (src.length - (data.length - pos)) (by omega) (by omega)
        (by rw [List.length_drop]; omega)
    refine ⟨out, ?_, by omega, ?_⟩
    · simp only [wrapWrite, if_neg hstop, hmid, Option.bind_some, hout]
    · intro i hi
      rw [hget i, hmget i, rank]
      by_cases hin : pos ≤ i
      · rw [if_neg (by omega), if_pos ⟨hin, hi⟩, if_pos hin, if_pos (by omega),
          List.getElem?_take_of_lt (by omega)]
      · rw [if_neg hin]
        by_cases hhead : i + data.length < pos + src.length
        · rw [if_pos ⟨by omega, by omega⟩, if_pos (by omega), List.getElem?_drop]
          congr 1
          omega
        · rw [if_neg (by omega), if_neg (by omega), if_neg (by omega)]

/-- **Wrapped store.** A block of at most one revolution, stored at offset
`w`, is read back at the offsets `w + j`; the offsets before `w` that are less
than a revolution away from the end of the block keep their cells. -/
theorem wrapWrite_spec (data src : List α) (w : Nat)
    (hcap : 0 < data.length) (hsrc : src.length ≤ data.length) :
    ∃ out, wrapWrite data (w % data.length) src = some out ∧
      out.length = data.length ∧
      (∀ j, j < src.length → cell out (w + j) = src[j]?) ∧
      (∀ j, j < w → w + src.length ≤ j + data.length → cell out j = cell data j) := by
  obtain ⟨out, hout, hlen, hget⟩ :=
    wrapWrite_physical data src (w % data.length) (Nat.mod_lt _ hcap) hsrc
  refine ⟨out, hout, hlen, ?_, ?_⟩
  · intro j hj
    rw [cell, hlen, hget _ (Nat.mod_lt _ hcap), rank_mod_add w (by omega), if_pos hj]
  · intro j hj hfar
    -- Seen from `w`, the offset `j` is the one a revolution later.
    have hshift : j % data.length = (w + (j + data.length - w)) % data.length := by
      rw [show w + (j + data.length - w) = j + data.length by omega, Nat.add_mod_right]
    rw [cell, hlen, hget _ (Nat.mod_lt _ hcap), cell, hshift,
      rank_mod_add w (by omega), if_neg (by omega)]

/-- **Wrapped load.** A block of at most one revolution, loaded at offset `r`,
lists the cells of the offsets `r + j`. -/
theorem wrapRead_spec (data : List α) (r avail : Nat)
    (hcap : 0 < data.length) (havail : avail ≤ data.length) :
    ∃ out, wrapRead data (r % data.length) avail = some out ∧
      out.length = avail ∧ ∀ j, j < avail → out[j]? = cell data (r + j) := by
  have hr := Nat.mod_lt r hcap
  by_cases hstop : r % data.length + avail ≤ data.length
  · obtain ⟨out, hout, hlen, hget⟩ :=
      slice_spec data (r % data.length) (r % data.length + avail) (by omega) hstop
    refine ⟨out, ?_, by omega, ?_⟩
    · simp only [wrapRead, if_pos hstop, hout]
    · intro j hj
      have hturn : (r + j) % data.length = r % data.length + j := by
        rw [← Nat.mod_add_mod]
        exact Nat.mod_eq_of_lt (by omega)
      rw [hget j (by omega), cell, hturn]
  · obtain ⟨back, hback, hblen, hbget⟩ :=
      slice_spec data (r % data.length) data.length (by omega) (by omega)
    obtain ⟨front, hfront, hflen, hfget⟩ :=
      slice_spec data 0 (avail - (data.length - r % data.length)) (by omega) (by omega)
    refine ⟨back ++ front, ?_, ?_, ?_⟩
    · simp only [wrapRead, if_neg hstop, hback, hfront, Option.bind_some, Option.map_some]
    · rw [List.length_append]; omega
    · intro j hj
      rw [cell, Nat.add_mod, Nat.mod_eq_of_lt (show j < data.length by omega)]
      by_cases h : r % data.length + j < data.length
      · rw [List.getElem?_append_left (by omega), hbget j (by omega), Nat.mod_eq_of_lt h]
      · have hturn : (r % data.length + j) % data.length = r % data.length + j - data.length := by
          rw [Nat.mod_eq_sub_mod (by omega), Nat.mod_eq_of_lt (by omega)]
        rw [List.getElem?_append_right (by omega), hfget _ (by omega), hturn]
        congr 1
        omega

/-- Storing a block and then the block that follows it is storing both as one
block. -/
theorem wrapWrite_append (data front back : List α) (w : Nat)
    (hcap : 0 < data.length) (hlen : front.length + back.length ≤ data.length) :
    (wrapWrite data (w % data.length) front).bind
        (fun mid => wrapWrite mid ((w + front.length) % data.length) back) =
      wrapWrite data (w % data.length) (front ++ back) := by
  have hw := Nat.mod_lt w hcap
  have hw' := Nat.mod_lt (w + front.length) hcap
  obtain ⟨mid, hmid, hmlen, hmget⟩ :=
    wrapWrite_physical data front (w % data.length) hw (by omega)
  obtain ⟨out, hout, holen, hoget⟩ :=
    wrapWrite_physical mid back ((w + front.length) % data.length) (by omega) (by omega)
  obtain ⟨all, hall, halen, haget⟩ :=
    wrapWrite_physical data (front ++ back) (w % data.length) hw
      (by rw [List.length_append]; omega)
  rw [hmid, Option.bind_some, hout, hall]
  congr 1
  apply List.ext_getElem?
  intro i
  by_cases hi : i < data.length
  · -- `k` is the distance from `w`; the distance from the end of `front` is
    -- `k - front.length` behind it and a revolution further inside it.
    obtain ⟨k, hk⟩ : ∃ k, k = rank data.length (w % data.length) i := ⟨_, rfl⟩
    have hkcap : k < data.length := hk ▸ rank_lt hw hi
    have hki : (w + k) % data.length = i := hk ▸ mod_add_rank w hi
    rw [hoget i (by omega), hmget i hi, haget i hi, hmlen, List.length_append, ← hk]
    by_cases hfront : k < front.length
    · have hrank : rank data.length ((w + front.length) % data.length) i =
          k + data.length - front.length := by
        have hturn : w + front.length + (k + data.length - front.length) =
            w + k + data.length := by omega
        rw [← rank_mod_add (w + front.length)
          (show k + data.length - front.length < data.length by omega), hturn,
          Nat.add_mod_right, hki]
      rw [hrank, if_neg (by omega), if_pos hfront, if_pos (by omega),
        List.getElem?_append_left hfront]
    · have hrank : rank data.length ((w + front.length) % data.length) i =
          k - front.length := by
        have hturn : w + front.length + (k - front.length) = w + k := by omega
        rw [← rank_mod_add (w + front.length)
          (show k - front.length < data.length by omega), hturn, hki]
      rw [hrank, if_neg hfront]
      by_cases hback : k < front.length + back.length
      · rw [if_pos (by omega), if_pos hback, List.getElem?_append_right (by omega)]
      · rw [if_neg (by omega), if_neg hback]
  · rw [List.getElem?_eq_none (by omega), List.getElem?_eq_none (by omega)]

end Corsair.Verified.Circular
