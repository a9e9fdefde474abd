import Corsair.Verified.BigEndian

/-!
# Frames behind a length prefix

A frame is a body behind its length, a big-endian numeral of a fixed width.  A reader has a
limit: a longer length is refused.  `front` looks at the front of a buffer, `drain` takes
all whole frames off it.

A buffer that is drained piece by piece, with what is left carried over, gives what it gives
in one piece (`drain_append`): where a stream is cut makes no difference.

## Main results

* `front_eq_whole`, `front_eq_oversize` — what stands in front of a buffer.
* `drain_append` — a buffer in two pieces.
* `drain_frames` — whole frames are taken off, and the rest is drained.
* `feed_frames` — a reader that keeps its buffer, fed whole frames in any pieces.
-/

namespace Corsair.Verified.LengthPrefixed

open Corsair.Verified.BigEndian

/-- The width of the prefix and the largest length; each length fits in the prefix. -/
structure Framing where
  width : Nat
  limit : Nat
  width_pos : 0 < width
  fits : limit < 256 ^ width

/-- What stands in front of a buffer: less than a frame, a length that is refused, or a
frame. -/
inductive Front
  | short
  | oversize (size : Nat)
  | whole (body rest : List UInt8)
  deriving DecidableEq, Repr

variable (f : Framing)

def frame (body : List UInt8) : List UInt8 := toBytes f.width body.length ++ body

def frames (bodies : List (List UInt8)) : List UInt8 := bodies.flatMap (frame f)

def front (buf : List UInt8) : Front :=
  if buf.length < f.width then .short
  else
    let size := ofBytes (buf.take f.width)
    if f.limit < size then .oversize size
    else if buf.length < f.width + size then .short
    else .whole ((buf.drop f.width).take size) (buf.drop (f.width + size))

variable {f}

@[simp] theorem length_frame (body : List UInt8) :
    (frame f body).length = f.width + body.length := by
  simp [frame]

@[simp] theorem frames_nil : frames f [] = [] := rfl

@[simp] theorem frames_cons (body : List UInt8) (bodies : List (List UInt8)) :
    frames f (body :: bodies) = frame f body ++ frames f bodies := rfl

@[simp] theorem frames_append (front back : List (List UInt8)) :
    frames f (front ++ back) = frames f front ++ frames f back :=
  List.flatMap_append

/-! ## The front of a buffer -/

/-- A reader that looks for itself, and answers by what stands in front. -/
theorem answer_front {β : Type*} (short : β) (oversize : Nat → β)
    (whole : List UInt8 → List UInt8 → β) (buf : List UInt8) :
    (if buf.length < f.width then short
      else
        let size := ofBytes (buf.take f.width)
        if f.limit < size then oversize size
        else if buf.length < f.width + size then short
        else whole ((buf.drop f.width).take size) (buf.drop (f.width + size))) =
      match front f buf with
      | .short => short
      | .oversize size => oversize size
      | .whole body rest => whole body rest := by
  unfold front
  simp only
  split
  · rfl
  split
  · rfl
  split
  · rfl
  · rfl

theorem front_frame {body : List UInt8} (h : body.length ≤ f.limit) (rest : List UInt8) :
    front f (frame f body ++ rest) = .whole body rest := by
  have hwidth : (toBytes f.width body.length).length = f.width := toBytes_length ..
  have hsize : ofBytes ((frame f body ++ rest).take f.width) = body.length := by
    rw [frame, List.append_assoc, List.take_left' hwidth]
    exact ofBytes_toBytes_of_lt (Nat.lt_of_le_of_lt h f.fits)
  have hlength : (frame f body ++ rest).length = f.width + body.length + rest.length := by simp
  have hbody : ((frame f body ++ rest).drop f.width).take body.length = body := by
    rw [frame, List.append_assoc, List.drop_left' hwidth, List.take_left]
  have hrest : (frame f body ++ rest).drop (f.width + body.length) = rest :=
    List.drop_left' (length_frame body)
  unfold front
  rw [if_neg (by omega)]
  simp only [hsize]
  rw [if_neg (by omega), if_neg (by omega), hbody, hrest]

theorem front_oversize {size : Nat} (hlarge : f.limit < size) (hfits : size < 256 ^ f.width)
    (rest : List UInt8) : front f (toBytes f.width size ++ rest) = .oversize size := by
  have hsize : ofBytes ((toBytes f.width size ++ rest).take f.width) = size := by
    rw [List.take_left' (toBytes_length ..)]
    exact ofBytes_toBytes_of_lt hfits
  unfold front
  rw [if_neg (by simp)]
  simp only [hsize]
  rw [if_pos hlarge]

/-- The prefix and the rest of a buffer that has one. -/
theorem split_buffer {buf : List UInt8} (h : f.width ≤ buf.length) :
    toBytes f.width (ofBytes (buf.take f.width)) ++ buf.drop f.width = buf := by
  have hlength : (buf.take f.width).length = f.width := List.length_take_of_le h
  have hstart := toBytes_ofBytes (buf.take f.width)
  rw [hlength] at hstart
  rw [hstart, List.take_append_drop]

theorem front_eq_whole {buf body rest : List UInt8} :
    front f buf = .whole body rest ↔ body.length ≤ f.limit ∧ buf = frame f body ++ rest := by
  constructor
  · intro h
    unfold front at h
    split at h
    · cases h
    simp only at h
    split at h
    · cases h
    split at h
    · cases h
    · obtain ⟨rfl, rfl⟩ := Front.whole.inj h
      have hlength : ((buf.drop f.width).take (ofBytes (buf.take f.width))).length =
          ofBytes (buf.take f.width) := by
        rw [List.length_take, List.length_drop]
        omega
      refine ⟨by omega, ?_⟩
      rw [frame, hlength, List.append_assoc, ← List.drop_drop, List.take_append_drop,
        split_buffer (by omega)]
  · rintro ⟨hle, rfl⟩
    exact front_frame hle rest

theorem front_eq_oversize {buf : List UInt8} {size : Nat} :
    front f buf = .oversize size ↔
      f.limit < size ∧ size < 256 ^ f.width ∧ ∃ rest, buf = toBytes f.width size ++ rest := by
  constructor
  · intro h
    unfold front at h
    split at h
    · cases h
    simp only at h
    split at h
    · rename_i hlarge
      obtain rfl := Front.oversize.inj h
      have hlength : (buf.take f.width).length = f.width := List.length_take_of_le (by omega)
      have hlt := ofBytes_lt (buf.take f.width)
      rw [hlength] at hlt
      exact ⟨hlarge, hlt, _, (split_buffer (by omega)).symm⟩
    split at h
    · cases h
    · cases h
  · rintro ⟨hlarge, hfits, rest, rfl⟩
    exact front_oversize hlarge hfits rest

/-- More bytes do not change a frame in front of a buffer … -/
theorem front_append_whole {buf body rest : List UInt8} (h : front f buf = .whole body rest)
    (more : List UInt8) : front f (buf ++ more) = .whole body (rest ++ more) := by
  obtain ⟨hle, rfl⟩ := front_eq_whole.mp h
  rw [List.append_assoc]
  exact front_frame hle (rest ++ more)

/-- … nor a length that is refused. -/
theorem front_append_oversize {buf : List UInt8} {size : Nat} (h : front f buf = .oversize size)
    (more : List UInt8) : front f (buf ++ more) = .oversize size := by
  obtain ⟨hlarge, hfits, rest, rfl⟩ := front_eq_oversize.mp h
  rw [List.append_assoc]
  exact front_oversize hlarge hfits (rest ++ more)

/-- A frame that is not all there. -/
theorem front_short_of_prefix {body part : List UInt8} (hle : body.length ≤ f.limit)
    (hpart : part <+: frame f body) (hne : part ≠ frame f body) : front f part = .short := by
  obtain ⟨more, hmore⟩ := hpart
  have hwhole := front_frame hle []
  rw [List.append_nil, ← hmore] at hwhole
  cases h : front f part with
  | short => rfl
  | oversize size => cases (front_append_oversize h more).symm.trans hwhole
  | whole other rest =>
      obtain ⟨-, hrest⟩ := Front.whole.inj ((front_append_whole h more).symm.trans hwhole)
      rw [List.append_eq_nil_iff] at hrest
      rw [hrest.2, List.append_nil] at hmore
      exact absurd hmore hne

/-- A frame shortens the buffer. -/
theorem length_rest_lt {buf body rest : List UInt8} (h : front f buf = .whole body rest) :
    rest.length < buf.length := by
  have hpos := f.width_pos
  obtain ⟨-, rfl⟩ := front_eq_whole.mp h
  rw [List.length_append, length_frame]
  omega

/-! ## All whole frames -/

/-- The bodies that were taken off a buffer, what is left of it, and the length that was
refused, if one was. -/
structure Drained where
  bodies : List (List UInt8)
  rest : List UInt8
  refused : Option Nat
  deriving DecidableEq, Repr

/-- Whole frames that were taken off before. -/
def Drained.behind (bodies : List (List UInt8)) (d : Drained) : Drained :=
  { d with bodies := bodies ++ d.bodies }

variable (f) in
def drain (buf : List UInt8) : Drained :=
  match _h : front f buf with
  | .short => ⟨[], buf, none⟩
  | .oversize size => ⟨[], buf, some size⟩
  | .whole body rest => (drain rest).behind [body]
termination_by buf.length
decreasing_by exact length_rest_lt ‹_›

theorem drain_short {buf : List UInt8} (h : front f buf = .short) :
    drain f buf = ⟨[], buf, none⟩ := by
  rw [drain]
  split
  · rfl
  · rename_i hsize
    cases h.symm.trans hsize
  · rename_i hwhole
    cases h.symm.trans hwhole

theorem drain_oversize {buf : List UInt8} {size : Nat} (h : front f buf = .oversize size) :
    drain f buf = ⟨[], buf, some size⟩ := by
  rw [drain]
  split
  · rename_i hshort
    cases h.symm.trans hshort
  · rename_i hsize
    obtain rfl := Front.oversize.inj (h.symm.trans hsize)
    rfl
  · rename_i hwhole
    cases h.symm.trans hwhole

theorem drain_whole {buf body rest : List UInt8} (h : front f buf = .whole body rest) :
    drain f buf = (drain f rest).behind [body] := by
  rw [drain]
  split
  · rename_i hshort
    cases h.symm.trans hshort
  · rename_i hsize
    cases h.symm.trans hsize
  · rename_i hwhole
    obtain ⟨rfl, rfl⟩ := Front.whole.inj (h.symm.trans hwhole)
    rfl

theorem front_nil : front f [] = .short := if_pos f.width_pos

@[simp] theorem drain_nil : drain f [] = ⟨[], [], none⟩ := drain_short front_nil

/-- Whole frames are taken off, and the rest is drained. -/
theorem drain_frames {bodies : List (List UInt8)} (h : ∀ body ∈ bodies, body.length ≤ f.limit)
    (rest : List UInt8) : drain f (frames f bodies ++ rest) = (drain f rest).behind bodies := by
  induction bodies with
  | nil => rfl
  | cons body bodies ih =>
      rw [List.forall_mem_cons] at h
      rw [frames_cons, List.append_assoc, drain_whole (front_frame h.1 _), ih h.2]
      rfl

theorem drain_frames_nil {bodies : List (List UInt8)} (h : ∀ body ∈ bodies, body.length ≤ f.limit) :
    drain f (frames f bodies) = ⟨bodies, [], none⟩ := by
  have hdrain := drain_frames h []
  rw [List.append_nil, drain_nil] at hdrain
  rw [hdrain]
  simp [Drained.behind]

/-- A length that is refused stays, with all behind it. -/
theorem drain_frames_oversize {bodies : List (List UInt8)}
    (h : ∀ body ∈ bodies, body.length ≤ f.limit) {size : Nat} (hlarge : f.limit < size)
    (hfits : size < 256 ^ f.width) (rest : List UInt8) :
    drain f (frames f bodies ++ (toBytes f.width size ++ rest)) =
      ⟨bodies, toBytes f.width size ++ rest, some size⟩ := by
  rw [drain_frames h, drain_oversize (front_oversize hlarge hfits rest)]
  simp [Drained.behind]

/-- **What a drain does.** It splits the buffer into whole frames and a rest that does not
start with one. -/
theorem drain_spec (buf : List UInt8) :
    buf = frames f (drain f buf).bodies ++ (drain f buf).rest ∧
      (∀ body ∈ (drain f buf).bodies, body.length ≤ f.limit) ∧
      front f (drain f buf).rest = (drain f buf).refused.elim .short .oversize := by
  induction buf using drain.induct f with
  | case1 buf h =>
      rw [drain_short h]
      exact ⟨rfl, by simp, h⟩
  | case2 buf size h =>
      rw [drain_oversize h]
      exact ⟨rfl, by simp, h⟩
  | case3 buf body rest h ih =>
      obtain ⟨hsplit, hlimit, hfront⟩ := ih
      obtain ⟨hle, hbuf⟩ := front_eq_whole.mp h
      rw [drain_whole h]
      refine ⟨?_, ?_, hfront⟩
      · show buf = frame f body ++ frames f (drain f rest).bodies ++ (drain f rest).rest
        rw [List.append_assoc, ← hsplit]
        exact hbuf
      · exact List.forall_mem_cons.mpr ⟨hle, hlimit⟩

theorem front_of_drain {buf rest : List UInt8} {bodies : List (List UInt8)}
    (h : drain f buf = ⟨bodies, rest, none⟩) : front f rest = .short := by
  obtain ⟨-, -, hfront⟩ := drain_spec (f := f) buf
  rwa [h] at hfront

/-- **A buffer in two pieces.** The second piece is drained behind what the first one left,
unless that is a length that is refused. -/
theorem drain_append (buf more : List UInt8) :
    drain f (buf ++ more) =
      match (drain f buf).refused with
      | some size => ⟨(drain f buf).bodies, (drain f buf).rest ++ more, some size⟩
      | none => (drain f ((drain f buf).rest ++ more)).behind (drain f buf).bodies := by
  obtain ⟨hsplit, hlimit, hfront⟩ := drain_spec (f := f) buf
  have hdrain := drain_frames hlimit ((drain f buf).rest ++ more)
  rw [← List.append_assoc, ← hsplit] at hdrain
  rw [hdrain]
  cases hrefused : (drain f buf).refused with
  | none => rfl
  | some size =>
      rw [hrefused] at hfront
      have hstill : front f ((drain f buf).rest ++ more) = .oversize size :=
        front_append_oversize hfront more
      rw [drain_oversize hstill]
      simp [Drained.behind]

/-- Where nothing is refused, in two pieces. -/
theorem drain_append_eq_none {buf more rest : List UInt8} {bodies : List (List UInt8)}
    (h : drain f (buf ++ more) = ⟨bodies, rest, none⟩) :
    ∃ first left later, drain f buf = ⟨first, left, none⟩ ∧
      drain f (left ++ more) = ⟨later, rest, none⟩ ∧ bodies = first ++ later := by
  rw [drain_append] at h
  cases hfirst : drain f buf with
  | mk first left refused =>
      rw [hfirst] at h
      cases refused with
      | some size => cases (Drained.mk.inj h).2.2
      | none =>
          cases hlater : drain f (left ++ more) with
          | mk later rest' refused' =>
              rw [hlater] at h
              obtain ⟨rfl, rfl, rfl⟩ := Drained.mk.inj h
              exact ⟨first, left, later, rfl, hlater, rfl⟩

/-! ## A stream in pieces -/

/-- A reader that keeps its buffer: each piece is appended, and `decode` takes off the buffer
what it can.  The result is what each call gave, and the buffer in the end. -/
def feed {ρ : Type*} (decode : List UInt8 → ρ × List UInt8) :
    List UInt8 → List (List UInt8) → List ρ × List UInt8
  | buf, [] => ([], buf)
  | buf, piece :: pieces =>
      let call := decode (buf ++ piece)
      let later := feed decode call.2 pieces
      (call.1 :: later.1, later.2)

/-- **Where a stream is cut makes no difference.** A decoder that gives the drained frames
gives, call by call, those of the stream in one piece. -/
theorem feed_of_drain {ε β : Type*} {decode : List UInt8 → Except ε (List β) × List UInt8}
    {g : List UInt8 → β} (hdecode : ∀ buf bodies rest, drain f buf = ⟨bodies, rest, none⟩ →
      decode buf = (.ok (bodies.map g), rest))
    {buf rest : List UInt8} {bodies : List (List UInt8)} (hshort : front f buf = .short)
    (pieces : List (List UInt8)) (hdrain : drain f (buf ++ pieces.flatten) = ⟨bodies, rest, none⟩) :
    ∃ calls : List (List β), feed decode buf pieces = (calls.map .ok, rest) ∧
      calls.flatten = bodies.map g := by
  induction pieces generalizing buf bodies with
  | nil =>
      rw [List.flatten_nil, List.append_nil, drain_short hshort] at hdrain
      obtain ⟨rfl, rfl, -⟩ := Drained.mk.inj hdrain
      exact ⟨[], rfl, rfl⟩
  | cons piece pieces ih =>
      rw [List.flatten_cons, ← List.append_assoc] at hdrain
      obtain ⟨first, left, later, hfirst, hlater, rfl⟩ := drain_append_eq_none hdrain
      obtain ⟨calls, hcalls, hflatten⟩ := ih (front_of_drain hfirst) hlater
      refine ⟨first.map g :: calls, ?_, ?_⟩
      · simp only [feed, hdecode _ _ _ hfirst, hcalls, List.map_cons]
      · rw [List.flatten_cons, hflatten, List.map_append]

/-- A stream of whole frames, in any pieces: the calls give the bodies in order, and nothing
stays in the buffer. -/
theorem feed_frames {ε β : Type*} {decode : List UInt8 → Except ε (List β) × List UInt8}
    {g : List UInt8 → β} (hdecode : ∀ buf bodies rest, drain f buf = ⟨bodies, rest, none⟩ →
      decode buf = (.ok (bodies.map g), rest))
    {bodies pieces : List (List UInt8)} (h : ∀ body ∈ bodies, body.length ≤ f.limit)
    (hpieces : pieces.flatten = frames f bodies) :
    ∃ calls : List (List β), feed decode [] pieces = (calls.map .ok, []) ∧
      calls.flatten = bodies.map g := by
  refine feed_of_drain hdecode front_nil pieces ?_
  rw [List.nil_append, hpieces]
  exact drain_frames_nil h

/-! ## A reader that stops at a refused length -/

variable (f) in
/-- A reader that stops where a length is refused, and gives nothing of the call in which it
stops: the bodies that it delivers. -/
def delivered : List UInt8 → List (List UInt8) → List (List UInt8)
  | _, [] => []
  | buf, piece :: pieces =>
      match drain f (buf ++ piece) with
      | ⟨bodies, rest, none⟩ => bodies ++ delivered rest pieces
      | ⟨_, _, some _⟩ => []

theorem delivered_of_refused {buf piece left : List UInt8} {bodies : List (List UInt8)} {size : Nat}
    (h : drain f (buf ++ piece) = ⟨bodies, left, some size⟩) (pieces : List (List UInt8)) :
    delivered f buf (piece :: pieces) = [] := by
  rw [delivered, h]

theorem delivered_of_drained {buf piece left : List UInt8} {bodies : List (List UInt8)}
    (h : drain f (buf ++ piece) = ⟨bodies, left, none⟩) (pieces : List (List UInt8)) :
    delivered f buf (piece :: pieces) = bodies ++ delivered f left pieces := by
  rw [delivered, h]

/-- The bodies are delivered in order. -/
theorem delivered_prefix (buf : List UInt8) (pieces : List (List UInt8)) :
    delivered f buf pieces <+: (drain f (buf ++ pieces.flatten)).bodies := by
  induction pieces generalizing buf with
  | nil => exact List.nil_prefix
  | cons piece pieces ih =>
      rw [List.flatten_cons, ← List.append_assoc, drain_append]
      cases hfirst : drain f (buf ++ piece) with
      | mk first left refused =>
          cases refused with
          | some size =>
              rw [delivered_of_refused hfirst]
              exact List.nil_prefix
          | none =>
              rw [delivered_of_drained hfirst]
              exact (List.prefix_append_right_inj first).mpr (ih left)

variable (f) in
/-- At some cut of the pieces the bodies are in, and no length is refused. -/
def Cut (buf : List UInt8) (pieces bodies : List (List UInt8)) : Prop :=
  ∃ early late left, pieces = early ++ late ∧
    drain f (buf ++ early.flatten) = ⟨bodies, left, none⟩

/-- Nothing is in at the cut before the first piece. -/
theorem cut_nil {buf : List UInt8} (h : front f buf = .short) (pieces : List (List UInt8)) :
    Cut f buf pieces [] :=
  ⟨[], pieces, buf, rfl, by rw [List.flatten_nil, List.append_nil, drain_short h]⟩

/-- Behind a refused length there is that cut only. -/
theorem cut_cons_refused {buf piece left : List UInt8} {bodies : List (List UInt8)} {size : Nat}
    (hshort : front f buf = .short) (hfirst : drain f (buf ++ piece) = ⟨bodies, left, some size⟩)
    (pieces : List (List UInt8)) : Cut f buf (piece :: pieces) bodies ↔ bodies = [] := by
  constructor
  · rintro ⟨early, late, left', hcut, hearly⟩
    cases early with
    | nil =>
        rw [List.flatten_nil, List.append_nil, drain_short hshort] at hearly
        exact (Drained.mk.inj hearly).1.symm
    | cons piece' early =>
        obtain ⟨rfl, -⟩ := List.cons.inj hcut
        rw [List.flatten_cons, ← List.append_assoc, drain_append, hfirst] at hearly
        cases (Drained.mk.inj hearly).2.2
  · rintro rfl
    exact cut_nil hshort (piece :: pieces)

/-- A cut behind a piece that is drained is one of the rest. -/
theorem cut_cons_drained {buf piece left : List UInt8} {first : List (List UInt8)}
    (hshort : front f buf = .short) (hfirst : drain f (buf ++ piece) = ⟨first, left, none⟩)
    (pieces later : List (List UInt8)) :
    Cut f buf (piece :: pieces) (first ++ later) ↔ Cut f left pieces later := by
  constructor
  · rintro ⟨early, late, left', hcut, hearly⟩
    cases early with
    | nil =>
        rw [List.flatten_nil, List.append_nil, drain_short hshort] at hearly
        obtain ⟨-, rfl⟩ := List.append_eq_nil_iff.mp (Drained.mk.inj hearly).1.symm
        exact cut_nil (front_of_drain hfirst) pieces
    | cons piece' early =>
        obtain ⟨rfl, rfl⟩ := List.cons.inj hcut
        rw [List.flatten_cons, ← List.append_assoc] at hearly
        obtain ⟨first', left'', later', hfirst', hlater', hbodies⟩ := drain_append_eq_none hearly
        obtain ⟨rfl, rfl, -⟩ := Drained.mk.inj (hfirst.symm.trans hfirst')
        have hsame : later = later' := List.append_cancel_left hbodies
        rw [hsame]
        exact ⟨early, late, left', rfl, hlater'⟩
  · rintro ⟨early, late, left', rfl, hearly⟩
    refine ⟨piece :: early, late, left', rfl, ?_⟩
    rw [List.flatten_cons, ← List.append_assoc, drain_append, hfirst]
    simp only [hearly, Drained.behind]

/-- All of them are delivered just if, at some cut, all frames are in and the refused length
is not. -/
theorem delivered_eq_iff {buf rest : List UInt8} {bodies : List (List UInt8)} {size : Nat}
    (hshort : front f buf = .short) {pieces : List (List UInt8)}
    (hdrain : drain f (buf ++ pieces.flatten) = ⟨bodies, rest, some size⟩) :
    delivered f buf pieces = bodies ↔
      ∃ early late left, pieces = early ++ late ∧
        drain f (buf ++ early.flatten) = ⟨bodies, left, none⟩ := by
  show delivered f buf pieces = bodies ↔ Cut f buf pieces bodies
  induction pieces generalizing buf bodies with
  | nil =>
      rw [List.flatten_nil, List.append_nil, drain_short hshort] at hdrain
      cases (Drained.mk.inj hdrain).2.2
  | cons piece pieces ih =>
      rw [List.flatten_cons, ← List.append_assoc, drain_append] at hdrain
      cases hfirst : drain f (buf ++ piece) with
      | mk first left refused =>
          rw [hfirst] at hdrain
          cases refused with
          | some size' =>
              obtain ⟨rfl, -, -⟩ := Drained.mk.inj hdrain
              rw [delivered_of_refused hfirst, cut_cons_refused hshort hfirst, eq_comm]
          | none =>
              cases hlater : drain f (left ++ pieces.flatten) with
              | mk later rest' refused' =>
                  simp only [hlater, Drained.behind] at hdrain
                  obtain ⟨rfl, rfl, rfl⟩ := Drained.mk.inj hdrain
                  rw [delivered_of_drained hfirst, List.append_cancel_left_eq,
                    cut_cons_drained hshort hfirst]
                  exact ih (front_of_drain hfirst) hlater

/-- The cuts of a stream at which all frames are in and the length behind them is not. -/
theorem drain_cut {bodies : List (List UInt8)} (h : ∀ body ∈ bodies, body.length ≤ f.limit)
    {size : Nat} (hlarge : f.limit < size) (hfits : size < 256 ^ f.width)
    {early late tail : List UInt8}
    (hstream : early ++ late = frames f bodies ++ (toBytes f.width size ++ tail)) :
    (∃ left, drain f early = ⟨bodies, left, none⟩) ↔
      (frames f bodies).length ≤ early.length ∧
        early.length < (frames f bodies).length + f.width := by
  constructor
  · rintro ⟨left, hdrain⟩
    obtain ⟨hsplit, -, hfront⟩ := drain_spec (f := f) early
    rw [hdrain] at hsplit hfront
    simp only at hsplit hfront
    have hlength : early.length = (frames f bodies).length + left.length := by
      rw [hsplit, List.length_append]
    refine ⟨by omega, ?_⟩
    by_contra hlong
    rw [hsplit, List.append_assoc] at hstream
    have hrest := List.append_cancel_left hstream
    have hlonger : (toBytes f.width size).length ≤ left.length := by
      rw [toBytes_length]
      omega
    obtain ⟨more, rfl⟩ := List.prefix_of_prefix_length_le ⟨tail, rfl⟩ ⟨late, hrest⟩ hlonger
    rw [front_oversize hlarge hfits] at hfront
    cases hfront
  · rintro ⟨hle, hlt⟩
    obtain ⟨left, rfl⟩ := List.prefix_of_prefix_length_le ⟨toBytes f.width size ++ tail, rfl⟩
      ⟨late, hstream⟩ hle
    have hshort : front f left = .short := by
      rw [List.length_append] at hlt
      exact if_pos (by omega)
    refine ⟨left, ?_⟩
    rw [drain_frames h, drain_short hshort]
    simp [Drained.behind]

end Corsair.Verified.LengthPrefixed
