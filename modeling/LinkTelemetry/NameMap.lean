/-!
# Maps keyed by names

Entries in the order of the names, which is the order of their bytes and so
that of their code points; one entry per name. A map carries the proof of its
order, so no two entries of it share a name. A look-up after an insertion
finds the new entry under its name and the old ones elsewhere.
-/

namespace LinkTelemetry

/-- At most one entry for each name, in the order of the names. -/
structure NameMap (α : Type) where
  entries : List (String × α) := []
  sorted : entries.Pairwise (fun a b => a.1 < b.1) := by exact .nil

namespace NameMap

variable {α : Type}

def empty : NameMap α := {}

/-- The first entry under a name. -/
def find (e : String) : List (String × α) → Option α
  | [] => none
  | (k, x) :: rest => if k = e then some x else find e rest

def get? (map : NameMap α) (e : String) : Option α := find e map.entries

/-- Puts an entry before the first greater name, in place of one of the same
name. -/
def place (e : String) (x : α) : List (String × α) → List (String × α)
  | [] => [(e, x)]
  | (k, y) :: rest =>
    if e = k then (e, x) :: rest
    else if e < k then (e, x) :: (k, y) :: rest
    else (k, y) :: place e x rest

theorem mem_place {e : String} {x : α} {entry : String × α} :
    ∀ {entries : List (String × α)}, entry ∈ place e x entries →
      entry = (e, x) ∨ entry ∈ entries
  | [], h => by simpa [place] using h
  | (k, y) :: rest, h => by
      rw [place] at h
      split at h
      · rcases List.mem_cons.mp h with h | h
        · exact .inl h
        · exact .inr (List.mem_cons_of_mem _ h)
      · split at h
        · exact List.mem_cons.mp h
        · rcases List.mem_cons.mp h with h | h
          · exact .inr (h ▸ List.mem_cons_self)
          · exact (mem_place h).imp_right (List.mem_cons_of_mem _)

theorem pairwise_place (e : String) (x : α) {entries : List (String × α)}
    (h : entries.Pairwise (fun a b => a.1 < b.1)) :
    (place e x entries).Pairwise (fun a b => a.1 < b.1) := by
  induction h with
  | nil => simp [place]
  | @cons head rest hhead hrest ih =>
      obtain ⟨k, y⟩ := head
      rw [place]
      split
      · next he => subst he; exact .cons hhead hrest
      · next he =>
          split
          · next hlt =>
              refine .cons ?_ (.cons hhead hrest)
              rintro entry (_ | ⟨_, hmem⟩)
              · exact hlt
              · exact String.lt_trans hlt (hhead entry hmem)
          · next hge =>
              refine .cons ?_ ih
              intro entry hmem
              rcases mem_place hmem with rfl | hmem
              · exact Std.lt_of_le_of_ne (String.not_lt.mp hge) (Ne.symm he)
              · exact hhead entry hmem

/-- The map with the entry of one name replaced. -/
def insert (map : NameMap α) (e : String) (x : α) : NameMap α :=
  ⟨place e x map.entries, pairwise_place e x map.sorted⟩

theorem find_place (e f : String) (x : α) (entries : List (String × α)) :
    find f (place e x entries) = if f = e then some x else find f entries := by
  by_cases hf : e = f
  · subst hf
    induction entries with
    | nil => simp [place, find]
    | cons entry rest ih =>
      obtain ⟨k, y⟩ := entry
      by_cases hk : e = k
      · simp [place, find, hk]
      · by_cases hlt : e < k
        · simp [place, find, hk, hlt]
        · simp [place, find, hk, hlt, Ne.symm hk, ih]
  · induction entries with
    | nil => simp [place, find, hf, Ne.symm hf]
    | cons entry rest ih =>
      obtain ⟨k, y⟩ := entry
      by_cases hk : e = k
      · subst hk; simp [place, find, hf, Ne.symm hf]
      · by_cases hlt : e < k
        · simp [place, find, hk, hlt, hf, Ne.symm hf]
        · simp [place, find, hk, hlt, ih, Ne.symm hf]

@[simp] theorem get?_empty (e : String) : (empty : NameMap α).get? e = none := rfl

@[simp] theorem get?_insert (map : NameMap α) (e f : String) (x : α) :
    (map.insert e x).get? f = if f = e then some x else map.get? f :=
  find_place e f x map.entries

/-- The map without the entry of one name. -/
def erase (map : NameMap α) (e : String) : NameMap α :=
  ⟨map.entries.filter fun entry => entry.1 ≠ e, map.sorted.filter _⟩

/-- The names with an entry, in order. -/
def keys (map : NameMap α) : List String := map.entries.map (·.1)

theorem keys_sorted (map : NameMap α) : map.keys.Pairwise (· < ·) :=
  List.pairwise_map.mpr map.sorted

theorem isSome_find {e : String} : ∀ {entries : List (String × α)},
    (find e entries).isSome ↔ e ∈ entries.map (·.1)
  | [] => by simp [find]
  | (k, x) :: rest => by
      by_cases hk : k = e
      · simp [find, hk]
      · simp [find, hk, Ne.symm hk, isSome_find]

theorem mem_keys (map : NameMap α) (e : String) : e ∈ map.keys ↔ (map.get? e).isSome :=
  isSome_find.symm

def size (map : NameMap α) : Nat := map.entries.length

def isEmpty (map : NameMap α) : Bool := map.entries.isEmpty

/-- The map of a list of entries; the last entry of a name counts. -/
def ofList (entries : List (String × α)) : NameMap α :=
  entries.foldl (fun map (e, x) => map.insert e x) empty

end NameMap

end LinkTelemetry
