import CkbDilithium.Lib.Bytes

/-!
# The molecule layouts

The four composite layouts of molecule: fixed-size vectors (an item count, then the items), dynamic
vectors and tables (the full size, one offset per item, then the items), options (nothing, or the
inner bytes). The readers are the verifying ones of the generated code without compatibility mode:
sizes and offsets must match exactly. Each encoder is undone by its reader as long as the size fits
the 32-bit header (`readFixVec_encode`, `readDynVec_encode`). Replacing one part by another of the same
length changes no header (`Embeds`).
-/

namespace CkbDilithium.Molecule

/-! ### Fixed-size vectors -/

def encodeFixVec (items : List Bytes) : Bytes := leBytes 4 items.length ++ items.flatten

/-- `count` consecutive chunks of `size` bytes. -/
def chunks (size : Nat) : Nat → Bytes → List Bytes
  | 0, _ => []
  | count + 1, bs => bs.take size :: chunks size count (bs.drop size)

def readFixVec (size : Nat) (bs : Bytes) : Option (List Bytes) :=
  if bs.length < 4 then none
  else
    let count := leVal (bs.take 4)
    if bs.length ≠ 4 + size * count then none else some (chunks size count (bs.drop 4))

theorem chunks_flatten {size : Nat} {items : List Bytes} (h : ∀ x ∈ items, x.length = size) :
    chunks size items.length items.flatten = items := by
  induction items with
  | nil => rfl
  | cons x items ih =>
    have hx : x.length = size := h x (by simp)
    subst hx
    simp only [List.length_cons, chunks, List.flatten_cons, List.take_left', List.drop_left',
      ih fun y hy => h y (by simp [hy])]

theorem flatten_length_of_size {size : Nat} {items : List Bytes} (h : ∀ x ∈ items, x.length = size) :
    items.flatten.length = size * items.length := by
  induction items with
  | nil => simp
  | cons x items ih =>
    have hx := h x (by simp)
    have htail := ih fun y hy => h y (by simp [hy])
    simp only [List.flatten_cons, List.length_append, List.length_cons, hx, htail]
    ring

theorem readFixVec_encode {size : Nat} {items : List Bytes} (h : ∀ x ∈ items, x.length = size)
    (hcount : items.length < 2 ^ 32) : readFixVec size (encodeFixVec items) = some items := by
  have hlen : (encodeFixVec items).length = 4 + size * items.length := by
    simp [encodeFixVec, flatten_length_of_size h]
  have htake : (encodeFixVec items).take 4 = leBytes 4 items.length := List.take_left' (by simp)
  have hdrop : (encodeFixVec items).drop 4 = items.flatten := List.drop_left' (by simp)
  simp only [readFixVec, htake, hdrop, leVal_leBytes_four hcount]
  rw [if_neg (by omega), if_neg (by omega), chunks_flatten h]

/-- `Bytes`, the fixed-size vector of single bytes. -/
def readBytes (bs : Bytes) : Option Bytes := (readFixVec 1 bs).map List.flatten

theorem readBytes_encode {bs : Bytes} (h : bs.length < 2 ^ 32) :
    readBytes (encodeFixVec (bs.map fun b => [b])) = some bs := by
  rw [readBytes, readFixVec_encode (by simp) (by simpa using h)]
  simp [← List.flatMap_def]

/-! ### Dynamic vectors and tables -/

/-- The positions of consecutive items from `start` on, the end of the last one included. -/
def bounds : Nat → List Bytes → List Nat
  | start, [] => [start]
  | start, x :: items => start :: bounds (start + x.length) items

/-- The positions at which the items start. -/
def offsets (start : Nat) (items : List Bytes) : List Nat := (bounds start items).dropLast

def headerSize (items : List Bytes) : Nat := 4 + 4 * items.length

def encodeDynVec (items : List Bytes) : Bytes :=
  leBytes 4 (headerSize items + items.flatten.length) ++
    (offsets (headerSize items) items).flatMap (leBytes 4) ++ items.flatten

/-- The first `count` numbers of a header. -/
def readNumbers : Nat → Bytes → List Nat
  | 0, _ => []
  | count + 1, bs => leVal (bs.take 4) :: readNumbers count (bs.drop 4)

/-- The parts between consecutive positions, which must not decrease. -/
def cut (bs : Bytes) : List Nat → Option (List Bytes)
  | s :: e :: rest => if s ≤ e then (cut bs (e :: rest)).map (slice bs s e :: ·) else none
  | _ => some []

def readDynVec (bs : Bytes) : Option (List Bytes) :=
  if bs.length < 4 then none
  else if leVal (bs.take 4) ≠ bs.length then none
  else if bs.length = 4 then some []
  else if bs.length < 8 then none
  else
    let first := leVal (slice bs 4 8)
    if first % 4 ≠ 0 ∨ first < 8 then none
    else if bs.length < first then none
    else cut bs (readNumbers (first / 4 - 1) (bs.drop 4) ++ [bs.length])

/-- A table is a dynamic vector with a fixed number of fields. -/
def readTable (fields : Nat) (bs : Bytes) : Option (List Bytes) :=
  (readDynVec bs).filter fun items => items.length == fields

/-- An absent option is written as nothing. -/
def readOption {α : Type} (read : Bytes → Option α) (bs : Bytes) : Option (Option α) :=
  if bs = [] then some none else (read bs).map some

theorem bounds_eq_offsets_append (start : Nat) (items : List Bytes) :
    bounds start items = offsets start items ++ [start + items.flatten.length] := by
  induction items generalizing start with
  | nil => simp [bounds, offsets]
  | cons x items ih =>
    have hne : bounds (start + x.length) items ≠ [] := by cases items <;> simp [bounds]
    rw [offsets, bounds, List.dropLast_cons_of_ne_nil hne, List.cons_append, ← offsets, ih]
    simp [Nat.add_assoc]

@[simp] theorem offsets_nil (start : Nat) : offsets start [] = [] := rfl

@[simp] theorem offsets_cons (start : Nat) (x : Bytes) (items : List Bytes) :
    offsets start (x :: items) = start :: offsets (start + x.length) items := by
  have hne : bounds (start + x.length) items ≠ [] := by cases items <;> simp [bounds]
  rw [offsets, bounds, List.dropLast_cons_of_ne_nil hne, offsets]

@[simp] theorem offsets_length (start : Nat) (items : List Bytes) :
    (offsets start items).length = items.length := by
  induction items generalizing start with
  | nil => rfl
  | cons x items ih => simp [ih]

theorem offsets_le {start : Nat} {items : List Bytes} {o : Nat} (h : o ∈ offsets start items) :
    o ≤ start + items.flatten.length := by
  induction items generalizing start with
  | nil => simp at h
  | cons x items ih =>
    simp only [offsets_cons, List.mem_cons] at h
    simp only [List.flatten_cons, List.length_append]
    rcases h with rfl | h
    · omega
    · have := ih h
      omega

theorem readNumbers_flatMap {ns : List Nat} (h : ∀ n ∈ ns, n < 2 ^ 32) (rest : Bytes) :
    readNumbers ns.length (ns.flatMap (leBytes 4) ++ rest) = ns := by
  induction ns with
  | nil => rfl
  | cons n ns ih =>
    have htake : (leBytes 4 n ++ (ns.flatMap (leBytes 4) ++ rest)).take 4 = leBytes 4 n :=
      List.take_left' (by simp)
    have hdrop : (leBytes 4 n ++ (ns.flatMap (leBytes 4) ++ rest)).drop 4 =
        ns.flatMap (leBytes 4) ++ rest := List.drop_left' (by simp)
    simp only [List.length_cons, List.flatMap_cons, List.append_assoc, readNumbers, htake, hdrop,
      leVal_leBytes_four (h n (by simp)), ih fun m hm => h m (by simp [hm])]

theorem flatMap_leBytes_length (ns : List Nat) : (ns.flatMap (leBytes 4)).length = 4 * ns.length := by
  induction ns with
  | nil => rfl
  | cons n ns ih =>
    simp only [List.flatMap_cons, List.length_append, leBytes_length, List.length_cons, ih]
    ring

/-- Cutting a string at the bounds of the items it ends with gives the items. -/
theorem cut_bounds (head : Bytes) (items : List Bytes) :
    cut (head ++ items.flatten) (bounds head.length items) = some items := by
  induction items generalizing head with
  | nil => rfl
  | cons x items ih =>
    have htail := ih (head ++ x)
    have hstart : ∃ rest, bounds (head.length + x.length) items =
        (head.length + x.length) :: rest := by
      cases items <;> exact ⟨_, rfl⟩
    obtain ⟨rest, hrest⟩ := hstart
    rw [List.length_append, hrest, List.append_assoc, ← List.flatten_cons] at htail
    rw [bounds, hrest, cut, if_pos (by omega), htail, List.flatten_cons, ← List.append_assoc,
      slice_append rfl rfl]
    rfl

@[simp] theorem encodeDynVec_length (items : List Bytes) :
    (encodeDynVec items).length = headerSize items + items.flatten.length := by
  simp only [encodeDynVec, List.length_append, leBytes_length, flatMap_leBytes_length,
    offsets_length, headerSize]

/-- **A dynamic vector reads back as its items** when its size fits the header. -/
theorem readDynVec_encode {items : List Bytes}
    (h : headerSize items + items.flatten.length < 2 ^ 32) :
    readDynVec (encodeDynVec items) = some items := by
  have hlen := encodeDynVec_length items
  have htake : (encodeDynVec items).take 4 = leBytes 4 (headerSize items + items.flatten.length) := by
    rw [encodeDynVec, List.append_assoc]
    exact List.take_left' (by simp)
  have hdrop : (encodeDynVec items).drop 4 =
      (offsets (headerSize items) items).flatMap (leBytes 4) ++ items.flatten := by
    rw [encodeDynVec, List.append_assoc]
    exact List.drop_left' (by simp)
  unfold readDynVec
  rw [if_neg (by rw [hlen, headerSize]; omega), htake, leVal_leBytes_four h, if_neg (by simp [hlen])]
  cases items with
  | nil => rfl
  | cons x items =>
    have hsize : headerSize (x :: items) = 8 + 4 * items.length := by simp [headerSize]; ring
    have hfirst : slice (encodeDynVec (x :: items)) 4 8 = leBytes 4 (headerSize (x :: items)) := by
      rw [slice, hdrop, offsets_cons, List.flatMap_cons, List.append_assoc]
      exact List.take_left' (by simp)
    have hread : readNumbers (headerSize (x :: items) / 4 - 1) ((encodeDynVec (x :: items)).drop 4) =
        offsets (headerSize (x :: items)) (x :: items) := by
      have hcount : headerSize (x :: items) / 4 - 1 =
          (offsets (headerSize (x :: items)) (x :: items)).length := by
        rw [offsets_length, hsize, List.length_cons]
        omega
      rw [hdrop, hcount]
      exact readNumbers_flatMap (fun n hn => by have := offsets_le hn; omega) _
    have hhead : (leBytes 4 (headerSize (x :: items) + (x :: items).flatten.length) ++
        (offsets (headerSize (x :: items)) (x :: items)).flatMap (leBytes 4)).length =
          headerSize (x :: items) := by
      simp only [List.length_append, leBytes_length, flatMap_leBytes_length, offsets_length, headerSize]
    have hcut := cut_bounds (leBytes 4 (headerSize (x :: items) + (x :: items).flatten.length) ++
        (offsets (headerSize (x :: items)) (x :: items)).flatMap (leBytes 4)) (x :: items)
    rw [hhead, bounds_eq_offsets_append] at hcut
    simp only [hfirst, leVal_leBytes_four (show headerSize (x :: items) < 2 ^ 32 by omega), hread, hlen]
    rw [if_neg (by omega), if_neg (by omega), if_neg (by omega), if_neg (by omega)]
    exact hcut

theorem readTable_encode {items : List Bytes}
    (h : headerSize items + items.flatten.length < 2 ^ 32) :
    readTable items.length (encodeDynVec items) = some items := by
  simp [readTable, readDynVec_encode h]

/-- An option reads back, as long as present values are not written as nothing. -/
theorem readOption_nil {α : Type} (read : Bytes → Option α) : readOption read [] = some none := rfl

theorem readOption_of_ne_nil {α : Type} {read : Bytes → Option α} {bs : Bytes} {a : α}
    (hne : bs ≠ []) (h : read bs = some a) : readOption read bs = some (some a) := by
  simp [readOption, hne, h]

/-! ### A part of a fixed size -/

/-- `f` writes its argument in one place: among arguments of `size` bytes, nothing else changes. -/
def Embeds (size : Nat) (f : Bytes → Bytes) : Prop :=
  ∃ before after, ∀ x : Bytes, x.length = size → f x = before ++ x ++ after

theorem Embeds.id (size : Nat) : Embeds size fun x => x :=
  ⟨[], [], fun x _ => by rw [List.nil_append, List.append_nil]⟩

/-- What is written has one length. -/
theorem Embeds.length_eq {size : Nat} {f : Bytes → Bytes} (h : Embeds size f) :
    ∃ n, ∀ x : Bytes, x.length = size → (f x).length = n := by
  obtain ⟨before, after, hf⟩ := h
  refine ⟨before.length + size + after.length, fun x hx => ?_⟩
  rw [hf x hx, List.length_append, List.length_append, hx]

/-- Text before and after what is written. -/
theorem Embeds.wrap {size : Nat} {f g : Bytes → Bytes} (h : Embeds size f) (left right : Bytes)
    (hg : ∀ x : Bytes, x.length = size → g x = left ++ f x ++ right) : Embeds size g := by
  obtain ⟨before, after, hf⟩ := h
  refine ⟨left ++ before, after ++ right, fun x hx => ?_⟩
  rw [hg x hx, hf x hx]
  simp only [List.append_assoc]

theorem Embeds.bytes {size : Nat} {f : Bytes → Bytes} (h : Embeds size f) :
    Embeds size fun x => encodeFixVec ((f x).map fun b => [b]) := by
  obtain ⟨n, hn⟩ := h.length_eq
  refine h.wrap (leBytes 4 n) [] fun x hx => ?_
  rw [encodeFixVec, List.length_map, hn x hx, List.append_nil, ← List.flatMap_def, List.flatMap_singleton']

/-- The header of a dynamic vector depends on the lengths of its items alone. -/
theorem offsets_congr {start : Nat} {items items' : List Bytes}
    (h : items.map List.length = items'.map List.length) : offsets start items = offsets start items' := by
  induction items generalizing start items' with
  | nil =>
    rw [List.map_nil] at h
    rw [List.map_eq_nil_iff.1 h.symm]
  | cons x items ih =>
    cases items' with
    | nil => simp at h
    | cons y items' =>
      rw [List.map_cons, List.map_cons, List.cons.injEq] at h
      rw [offsets_cons, offsets_cons, h.1, ih h.2]

theorem Embeds.dynVec {size : Nat} {f : Bytes → Bytes} (h : Embeds size f) (left right : List Bytes) :
    Embeds size fun x => encodeDynVec (left ++ f x :: right) := by
  obtain ⟨n, hn⟩ := h.length_eq
  -- The header is that of any item of the same length.
  have hlengths : ∀ x : Bytes, x.length = size → (left ++ f x :: right).map List.length =
      (left ++ List.replicate n 0 :: right).map List.length := by
    intro x hx
    simp [hn x hx]
  refine h.wrap (leBytes 4 (headerSize (left ++ List.replicate n 0 :: right) +
    (left ++ List.replicate n 0 :: right).flatten.length) ++
      (offsets (headerSize (left ++ List.replicate n 0 :: right)) (left ++ List.replicate n 0 :: right)).flatMap
        (leBytes 4) ++ left.flatten) right.flatten fun x hx => ?_
  have hheader : headerSize (left ++ f x :: right) = headerSize (left ++ List.replicate n 0 :: right) := by
    simp [headerSize]
  have hflatten : (left ++ f x :: right).flatten.length = (left ++ List.replicate n 0 :: right).flatten.length := by
    rw [List.length_flatten, List.length_flatten, hlengths x hx]
  have hitems : (left ++ f x :: right).flatten = left.flatten ++ (f x ++ right.flatten) := by
    rw [List.flatten_append, List.flatten_cons]
  rw [encodeDynVec, hheader, hflatten, offsets_congr (hlengths x hx), hitems]
  simp only [List.append_assoc]

end CkbDilithium.Molecule
