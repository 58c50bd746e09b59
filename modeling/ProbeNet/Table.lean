/-!
# Tables

A finite map kept as a list of entries, at most one for each key.  `find?`
is the view of a table: `find?_insert` and `find?_erase` say what the two
updates do to it.  Entries stay in the order in which their keys came in.
-/

namespace ProbeNet

/-- A finite map from `κ` to `α`. -/
structure Table (κ α : Type) where
  entries : List (κ × α)
  deriving DecidableEq, Repr

namespace Table

variable {κ α : Type} [DecidableEq κ]

def empty : Table κ α := ⟨[]⟩

def size (t : Table κ α) : Nat := t.entries.length

def keys (t : Table κ α) : List κ := t.entries.map Prod.fst

def values (t : Table κ α) : List α := t.entries.map Prod.snd

def findEntries (k : κ) : List (κ × α) → Option α
  | [] => none
  | e :: es => if e.1 = k then some e.2 else findEntries k es

/-- Replaces the value of `k` in a list of entries, or adds it at the end. -/
def insertEntries (k : κ) (a : α) : List (κ × α) → List (κ × α)
  | [] => [(k, a)]
  | e :: es => if e.1 = k then (k, a) :: es else e :: insertEntries k a es

def find? (t : Table κ α) (k : κ) : Option α := findEntries k t.entries

def contains (t : Table κ α) (k : κ) : Bool := (t.find? k).isSome

def insert (t : Table κ α) (k : κ) (a : α) : Table κ α := ⟨insertEntries k a t.entries⟩

def erase (t : Table κ α) (k : κ) : Table κ α := ⟨t.entries.filter fun e => e.1 ≠ k⟩

@[simp] theorem find?_empty (k : κ) : (empty : Table κ α).find? k = none := rfl

theorem findEntries_insertEntries (k k' : κ) (a : α) (es : List (κ × α)) :
    findEntries k' (insertEntries k a es) = if k = k' then some a else findEntries k' es := by
  induction es with
  | nil => simp [findEntries, insertEntries]
  | cons e es ih =>
    simp only [findEntries, insertEntries]
    grind [findEntries]

theorem findEntries_filter_ne (k k' : κ) (es : List (κ × α)) :
    findEntries k' (es.filter fun e => e.1 ≠ k) =
      if k = k' then none else findEntries k' es := by
  induction es with
  | nil => simp [findEntries]
  | cons e es ih =>
    simp only [List.filter_cons, findEntries]
    grind [findEntries]

/-- An insertion is seen under its key only. -/
theorem find?_insert (t : Table κ α) (k k' : κ) (a : α) :
    (t.insert k a).find? k' = if k = k' then some a else t.find? k' :=
  findEntries_insertEntries k k' a t.entries

/-- An erased key has no value, the others keep theirs. -/
theorem find?_erase (t : Table κ α) (k k' : κ) :
    (t.erase k).find? k' = if k = k' then none else t.find? k' :=
  findEntries_filter_ne k k' t.entries

theorem insertEntries_insertEntries (k : κ) (a b : α) (es : List (κ × α)) :
    insertEntries k b (insertEntries k a es) = insertEntries k b es := by
  induction es with
  | nil => simp [insertEntries]
  | cons e es ih =>
    by_cases hk : e.1 = k
    · simp [insertEntries, hk]
    · simp [insertEntries, hk, ih]

theorem filter_ne_insertEntries (k : κ) (a : α) (es : List (κ × α)) :
    (insertEntries k a es).filter (fun e => e.1 ≠ k) = es.filter fun e => e.1 ≠ k := by
  induction es with
  | nil => simp [insertEntries]
  | cons e es ih =>
    by_cases hk : e.1 = k
    · simp [insertEntries, hk]
    · simpa [insertEntries, hk] using ih

theorem filter_ne_of_none {k : κ} {es : List (κ × α)} (h : findEntries k es = none) :
    es.filter (fun e => e.1 ≠ k) = es := by
  induction es with
  | nil => rfl
  | cons e es ih =>
    by_cases hk : e.1 = k
    · simp [findEntries, hk] at h
    · simp only [findEntries, if_neg hk] at h
      rw [List.filter_cons_of_pos (by simpa using hk), ih h]

/-- The later of two insertions under one key counts. -/
@[simp] theorem insert_insert (t : Table κ α) (k : κ) (a b : α) :
    (t.insert k a).insert k b = t.insert k b :=
  congrArg mk (insertEntries_insertEntries k a b t.entries)

@[simp] theorem erase_insert (t : Table κ α) (k : κ) (a : α) :
    (t.insert k a).erase k = t.erase k :=
  congrArg mk (filter_ne_insertEntries k a t.entries)

/-- There is nothing to erase under a key without a value. -/
theorem erase_of_none {t : Table κ α} {k : κ} (h : t.find? k = none) : t.erase k = t :=
  congrArg mk (filter_ne_of_none h)

/-- A new key comes last. -/
theorem values_insert_of_none {t : Table κ α} {k : κ} (h : t.find? k = none) (a : α) :
    (t.insert k a).values = t.values ++ [a] := by
  obtain ⟨es⟩ := t
  show (insertEntries k a es).map Prod.snd = es.map Prod.snd ++ [a]
  induction es with
  | nil => rfl
  | cons e es ih =>
    simp only [find?, findEntries] at h
    split at h
    · cases h
    · rename_i hne
      simp only [insertEntries, if_neg hne, List.map_cons, List.cons_append]
      rw [ih h]

/-! ## Keys

Both updates keep the keys apart, so a table that began empty has one entry for each key
that has a value. -/

theorem mem_map_fst_iff (k : κ) (es : List (κ × α)) :
    k ∈ es.map Prod.fst ↔ (findEntries k es).isSome = true := by
  induction es with
  | nil => simp [findEntries]
  | cons e es ih =>
    simp only [List.map_cons, List.mem_cons, findEntries, ih]
    by_cases hk : e.1 = k
    · simp [hk]
    · simp [hk, Ne.symm hk]

/-- The keys of a table are those that have a value. -/
theorem mem_keys_iff (t : Table κ α) (k : κ) : k ∈ t.keys ↔ (t.find? k).isSome = true :=
  mem_map_fst_iff k t.entries

theorem nodup_insertEntries {es : List (κ × α)} (h : (es.map Prod.fst).Nodup) (k : κ) (a : α) :
    ((insertEntries k a es).map Prod.fst).Nodup := by
  induction es with
  | nil => simp [insertEntries]
  | cons e es ih =>
    simp only [List.map_cons, List.nodup_cons] at h
    obtain ⟨hfresh, hrest⟩ := h
    simp only [insertEntries]
    split
    · rename_i hk
      simp only [List.map_cons, List.nodup_cons]
      exact ⟨hk ▸ hfresh, hrest⟩
    · rename_i hk
      simp only [List.map_cons, List.nodup_cons]
      refine ⟨?_, ih hrest⟩
      rw [mem_map_fst_iff] at hfresh ⊢
      rw [findEntries_insertEntries, if_neg (Ne.symm hk)]
      exact hfresh

theorem nodup_keys_insert {t : Table κ α} (h : t.keys.Nodup) (k : κ) (a : α) :
    (t.insert k a).keys.Nodup := nodup_insertEntries h k a

theorem nodup_keys_erase {t : Table κ α} (h : t.keys.Nodup) (k : κ) :
    (t.erase k).keys.Nodup := h.sublist (List.filter_sublist.map Prod.fst)

end Table

end ProbeNet
