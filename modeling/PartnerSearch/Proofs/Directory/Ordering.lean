import PartnerSearch.Proofs.Directory.Selection
import PartnerSearch.Proofs.Text.Order

set_option autoImplicit false

/-!
The order of listings. Insertion sorts items of which any two can be told apart, and partners are
told apart by their ids if not by their names; so a listing is strictly increasing.
-/

namespace PartnerSearch

open Text (bytes bytes_lt_bytes)

/-- Before in a listing: by the bytes of the name, and for one name by those of the id. -/
def Partner.Precedes (a b : Partner) : Prop :=
  bytes a.name < bytes b.name ∨ a.name = b.name ∧ bytes a.id < bytes b.id

namespace Directory

section Insertion

variable {α : Type} {before : α → α → Bool}
  (transitive : ∀ a b c, before a b = true → before b c = true → before a c = true)

include transitive

theorem insertOrdered_pairwise {item : α} {items : List α}
    (sorted : items.Pairwise fun a b => before a b = true)
    (comparable : ∀ other ∈ items, before item other = true ∨ before other item = true) :
    (insertOrdered before item items).Pairwise fun a b => before a b = true := by
  induction items with
  | nil => exact List.pairwise_singleton _ item
  | cons first rest ih =>
      obtain ⟨least, sorted⟩ := List.pairwise_cons.mp sorted
      obtain ⟨here, there⟩ := List.forall_mem_cons.mp comparable
      rw [insertOrdered]
      split
      · rename_i earlier
        refine .cons ?_ (ih sorted there)
        intro other member
        rcases List.mem_cons.mp ((insertOrdered_perm before item rest).mem_iff.mp member) with
          rfl | member
        · exact earlier
        · exact least other member
      · rename_i notEarlier
        have first_later : before item first = true := here.resolve_right notEarlier
        refine .cons ?_ (.cons least sorted)
        intro other member
        rcases List.mem_cons.mp member with rfl | member
        · exact first_later
        · exact transitive item first other first_later (least other member)

/-- Any two items that are one before the other end up in that order. -/
theorem ordered_pairwise {items : List α}
    (comparable : items.Pairwise fun a b => before a b = true ∨ before b a = true) :
    (ordered before items).Pairwise fun a b => before a b = true := by
  induction items with
  | nil => exact .nil
  | cons item rest ih =>
      obtain ⟨here, rest_comparable⟩ := List.pairwise_cons.mp comparable
      refine insertOrdered_pairwise transitive (ih rest_comparable) ?_
      intro other member
      exact here other ((ordered_perm before rest).mem_iff.mp member)

end Insertion

theorem listedBefore_iff {a b : Partner} :
    listedBefore a b = true ↔ a.name < b.name ∨ a.name = b.name ∧ a.id < b.id := by
  simp [listedBefore]

theorem precedes_iff_listedBefore {a b : Partner} :
    a.Precedes b ↔ listedBefore a b = true := by
  rw [Partner.Precedes, bytes_lt_bytes, bytes_lt_bytes, listedBefore_iff]

theorem listedBefore_transitive (a b c : Partner) (first : listedBefore a b = true)
    (second : listedBefore b c = true) : listedBefore a c = true := by
  rw [listedBefore_iff] at first second ⊢
  rcases first with name | ⟨name, id⟩
  · rcases second with next | ⟨next, -⟩
    · exact .inl (lt_trans name next)
    · exact .inl (next ▸ name)
  · rcases second with next | ⟨next, lastId⟩
    · exact .inl (name ▸ next)
    · exact .inr ⟨name.trans next, lt_trans id lastId⟩

theorem listedBefore_or_of_ids {a b : Partner} (differ : a.id ≠ b.id) :
    listedBefore a b = true ∨ listedBefore b a = true := by
  rw [listedBefore_iff, listedBefore_iff]
  rcases lt_trichotomy a.name b.name with less | same | greater
  · exact .inl (.inl less)
  · rcases lt_or_gt_of_ne differ with less | greater
    · exact .inl (.inr ⟨same, less⟩)
    · exact .inr (.inr ⟨same.symm, greater⟩)
  · exact .inr (.inl greater)

/-- The partners that a predicate selects, in the order of a listing. -/
def listing (directory : Directory) (predicate : Predicate) : List Partner :=
  ordered listedBefore (directory.selected predicate)

theorem listing_perm (directory : Directory) (predicate : Predicate) :
    (directory.listing predicate).Perm (directory.selected predicate) := ordered_perm _ _

/-- Partners with ids of their own are listed in strictly increasing order. -/
theorem listing_precedes {directory : Directory}
    (unique : (directory.partners.map Partner.id).Nodup) (predicate : Predicate) :
    (directory.listing predicate).Pairwise Partner.Precedes := by
  have selected : ((directory.selected predicate).map Partner.id).Nodup :=
    (List.filter_sublist.map Partner.id).nodup unique
  have distinct : (directory.selected predicate).Pairwise fun a b => a.id ≠ b.id :=
    List.pairwise_map.mp selected
  have comparable := distinct.imp listedBefore_or_of_ids
  exact (ordered_pairwise listedBefore_transitive comparable).imp precedes_iff_listedBefore.mpr

end Directory

end PartnerSearch
