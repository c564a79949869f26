import LinkTelemetry.Config.Codec
import LinkTelemetry.Proofs.Outcomes

/-!
# Documents with empty fields left out

A part of a configuration that is not there is written as an empty field, and
some writers leave such fields out. `Thinned` relates a document to what any
of them may make of it. A reader reads a value from a document for good
(`Reads`) if it reads it from every thinned form, and this is kept by all
that readers are made of: a field that is never empty is always found, and one
that may be left out is read as what holds in its place.
-/

namespace LinkTelemetry

namespace Tree

/-- Some of the empty fields are left out, and the other values are related. -/
inductive Omitting (R : Tree → Tree → Prop) :
    List (String × Tree) → List (String × Tree) → Prop where
  | nil : Omitting R [] []
  | skip {name : String} {fields fields' : List (String × Tree)} (h : Omitting R fields fields') :
      Omitting R ((name, .null) :: fields) fields'
  | keep {name : String} {t t' : Tree} {fields fields' : List (String × Tree)} (ht : R t t')
      (h : Omitting R fields fields') : Omitting R ((name, t) :: fields) ((name, t') :: fields')

/-- A document, and the same one with some of its empty fields left out, at any
level. -/
inductive Thinned : Tree → Tree → Prop where
  | refl (t : Tree) : Thinned t t
  | list {items items' : List Tree} (h : List.Forall₂ Thinned items items') :
      Thinned (.list items) (.list items')
  | table {fields fields' : List (String × Tree)} (h : Omitting Thinned fields fields') :
      Thinned (.table fields) (.table fields')

theorem Omitting.refl (fields : List (String × Tree)) : Omitting Thinned fields fields := by
  induction fields with
  | nil => exact .nil
  | cons field rest ih => exact .keep (.refl _) ih

namespace Thinned

variable {t t' : Tree}

theorem exists_items {items : List Tree} (h : Thinned (.list items) t') :
    ∃ items', t' = .list items' ∧ List.Forall₂ Thinned items items' := by
  cases h with
  | refl => exact ⟨items, rfl, List.forall₂_same.mpr fun t _ => .refl t⟩
  | list h => exact ⟨_, rfl, h⟩

theorem exists_fields {fields : List (String × Tree)} (h : Thinned (.table fields) t') :
    ∃ fields', t' = .table fields' ∧ Omitting Thinned fields fields' := by
  cases h with
  | refl => exact ⟨fields, rfl, .refl fields⟩
  | table h => exact ⟨_, rfl, h⟩

theorem eq_null (h : Thinned t .null) : t = .null := by
  cases h
  rfl

end Thinned

mutual

/-- Leaving out every empty field is one way. -/
theorem thinned_withoutNulls : (t : Tree) → Thinned t t.withoutNulls
  | .list items => .list (thinned_itemsWithoutNulls items)
  | .table fields => .table (omitting_fieldsWithoutNulls fields)
  | .null | .flag _ | .whole _ | .real _ | .text _ | .moment _ => .refl _

theorem thinned_itemsWithoutNulls :
    (items : List Tree) → List.Forall₂ Thinned items (itemsWithoutNulls items)
  | [] => .nil
  | item :: rest => .cons (thinned_withoutNulls item) (thinned_itemsWithoutNulls rest)

theorem omitting_fieldsWithoutNulls :
    (fields : List (String × Tree)) → Omitting Thinned fields (fieldsWithoutNulls fields)
  | [] => .nil
  | (_, .null) :: rest => .skip (omitting_fieldsWithoutNulls rest)
  | (_, .list items) :: rest =>
      .keep (.list (thinned_itemsWithoutNulls items)) (omitting_fieldsWithoutNulls rest)
  | (_, .table fields) :: rest =>
      .keep (.table (omitting_fieldsWithoutNulls fields)) (omitting_fieldsWithoutNulls rest)
  | (_, .flag _) :: rest | (_, .whole _) :: rest | (_, .real _) :: rest | (_, .text _) :: rest
  | (_, .moment _) :: rest => .keep (.refl _) (omitting_fieldsWithoutNulls rest)

end

namespace Omitting

variable {fields fields' : List (String × Tree)}

theorem filter {R : Tree → Tree → Prop} (h : Omitting R fields fields') (p : String → Bool) :
    Omitting R (fields.filter fun f => p f.1) (fields'.filter fun f => p f.1) := by
  induction h with
  | nil => exact .nil
  | skip _ ih =>
      rw [List.filter_cons]
      split
      · exact .skip ih
      · exact ih
  | keep ht _ ih =>
      rw [List.filter_cons, List.filter_cons]
      dsimp only
      split
      · exact .keep ht ih
      · exact ih

/-- Where no field is empty, all are kept. -/
theorem forall₂ {R : Tree → Tree → Prop} (h : Omitting R fields fields')
    (hnull : ∀ f ∈ fields, f.2 ≠ .null) :
    List.Forall₂ (fun f f' => f.1 = f'.1 ∧ R f.2 f'.2) fields fields' := by
  induction h with
  | nil => exact .nil
  | skip => exact absurd rfl (hnull _ List.mem_cons_self)
  | keep ht _ ih => exact .cons ⟨rfl, ht⟩ (ih fun f hf => hnull f (List.mem_cons_of_mem _ hf))

theorem lookup_eq_none {R : Tree → Tree → Prop} (h : Omitting R fields fields') {name : String}
    (hname : name ∉ fields.map (·.1)) : lookup name fields' = none := by
  induction h with
  | nil => rfl
  | skip _ ih => exact ih fun hmem => hname (List.mem_cons_of_mem _ hmem)
  | keep _ _ ih =>
      rw [List.map_cons, List.mem_cons, not_or] at hname
      rw [lookup, if_neg (Ne.symm hname.1)]
      exact ih hname.2

/-- A field is found in its thinned form, unless it was empty. -/
theorem lookup_cases (h : Omitting Thinned fields fields') (hnodup : (fields.map (·.1)).Nodup)
    {name : String} {t : Tree} (ht : lookup name fields = some t) :
    t = .null ∧ lookup name fields' = none ∨
      ∃ t', Thinned t t' ∧ lookup name fields' = some t' := by
  induction h with
  | nil => cases ht
  | @skip k fields fields' h ih =>
      rw [List.map_cons, List.nodup_cons] at hnodup
      rw [lookup] at ht
      split at ht
      · next heq =>
          cases ht
          exact .inl ⟨rfl, h.lookup_eq_none (heq ▸ hnodup.1)⟩
      · exact ih hnodup.2 ht
  | @keep k u u' fields fields' hu _ ih =>
      rw [List.map_cons, List.nodup_cons] at hnodup
      rw [lookup] at ht ⊢
      split at ht
      · next heq =>
          cases ht
          exact .inr ⟨u', hu, if_pos heq⟩
      · next hne =>
          rw [if_neg hne]
          exact ih hnodup.2 ht

end Omitting

end Tree

namespace Codec

open LinkTelemetry.Tree (Thinned Omitting)

/-- Whatever empty fields are left out, the document reads as a value. -/
def Reads {α : Type} (value : Tree → Decoded α) (t : Tree) (a : α) : Prop :=
  ∀ t', Thinned t t' → value t' = .ok a

section

variable {α : Type} {value : Tree → Decoded α} {write : α → Tree}

theorem reads_text (s : String) : Reads text (.text s) s := by
  intro t' h
  cases h
  rfl

theorem reads_flag (b : Bool) : Reads flag (.flag b) b := by
  intro t' h
  cases h
  rfl

theorem reads_real (x : Float) : Reads real (.real x) x := by
  intro t' h
  cases h
  rfl

theorem natBelow_ok {bound n : Nat} (h : n < bound) : natBelow bound (.whole n) = .ok n := by
  rw [natBelow, Int.toNat_natCast, if_pos ⟨Int.natCast_nonneg n, h⟩]

theorem reads_uint16 (n : UInt16) : Reads uint16 (.whole n.toNat) n := by
  intro t' h
  cases h
  rw [uint16, natBelow_ok n.toNat_lt]
  exact congrArg Except.ok (UInt16.ofNat_toNat)

theorem reads_uint64 (n : UInt64) : Reads uint64 (.whole n.toNat) n := by
  intro t' h
  cases h
  rw [uint64, natBelow_ok n.toNat_lt]
  exact congrArg Except.ok (UInt64.ofNat_toNat)

theorem reads_list (h : ∀ a, Reads value (write a) a) (l : List α) :
    Reads (list value) (.list (l.map write)) l := by
  intro t' ht
  obtain ⟨items, rfl, hitems⟩ := ht.exists_items
  rw [List.forall₂_map_left_iff] at hitems
  have hread := mapM_eq_ok (g := id) hitems fun a _ t' ht => h a t' ht
  rwa [List.map_id] at hread

theorem reads_optional (h : ∀ a, Reads value (write a) a) (hnull : ∀ a, write a ≠ .null)
    (o : Option α) : Reads (optional value) (Tree.optional write o) o := by
  intro t' ht
  cases o with
  | none =>
      cases ht
      rfl
  | some a =>
      have hread := h a t' ht
      rw [optional.eq_def]
      split
      · exact absurd ht.eq_null (hnull a)
      · rw [hread]
        rfl

variable {fields fields' : List (String × Tree)} {t : Tree} {a : α} (name : String)

theorem field_ok (h : Omitting Thinned fields fields') (hnodup : (fields.map (·.1)).Nodup)
    (ht : Tree.lookup name fields = some t) (hread : Reads value t a) (hnull : t ≠ .null) :
    field name value fields' = .ok a := by
  rcases h.lookup_cases hnodup ht with ⟨heq, -⟩ | ⟨t', hthin, hlookup⟩
  · exact absurd heq hnull
  · rw [field, hlookup]
    exact hread t' hthin

theorem fieldOr_ok (standard : α) (h : Omitting Thinned fields fields')
    (hnodup : (fields.map (·.1)).Nodup) (ht : Tree.lookup name fields = some t)
    (hread : Reads value t a) (hnull : t = .null → a = standard) :
    fieldOr name value standard fields' = .ok a := by
  rcases h.lookup_cases hnodup ht with ⟨heq, hlookup⟩ | ⟨t', hthin, hlookup⟩
  · rw [fieldOr, hlookup, hnull heq]
  · rw [fieldOr, hlookup]
    exact hread t' hthin

theorem optionalField_ok (h : Omitting Thinned fields fields') (hnodup : (fields.map (·.1)).Nodup)
    {o : Option α} (ht : Tree.lookup name fields = some (Tree.optional write o))
    (hread : ∀ a, Reads value (write a) a) (hnull : ∀ a, write a ≠ .null) :
    fieldOr name (optional value) none fields' = .ok o := by
  refine fieldOr_ok name none h hnodup ht (reads_optional hread hnull o) fun heq => ?_
  cases o with
  | none => rfl
  | some a => exact absurd heq (hnull a)

end

end Codec

end LinkTelemetry
