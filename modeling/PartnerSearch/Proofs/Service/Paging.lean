import PartnerSearch.Proofs.Directory.Ordering
import PartnerSearch.Service

set_option autoImplicit false

/-!
Pages of a search. A configuration from the environment has positive page sizes, so a page is a part
of the listing that is bounded by the greatest of them, and pages one after the other are all of it.
-/

namespace PartnerSearch

/-- The limit or the offset of a request is negative. -/
def IsNegativeRequest (limit offset : Option Int64) : Prop :=
  (∃ wanted ∈ limit, wanted < 0) ∨ ∃ start ∈ offset, start < 0

namespace Configuration

variable {configuration : Configuration} {limit offset : Option Int64}

/-- The default page size is positive and within the greatest one. -/
def HasPageSizes (configuration : Configuration) : Prop :=
  1 ≤ configuration.defaultPageSize ∧ configuration.defaultPageSize ≤ configuration.maxPageSize

theorem hasPageSizes_of_checkPageSizes (checked : configuration.checkPageSizes = .ok ()) :
    configuration.HasPageSizes := by
  obtain ⟨-, checked⟩ := Outcome.refuse_eq_ok.mp checked
  obtain ⟨inRange, -⟩ := Outcome.refuse_eq_ok.mp checked
  rw [not_or] at inRange
  exact ⟨Int64.not_lt.mp inRange.1, Int64.not_lt.mp inRange.2⟩

theorem hasPageSizes_of_ofEnvironment {environment : Environment}
    (accepted : ofEnvironment environment = .ok configuration) : configuration.HasPageSizes := by
  simp only [ofEnvironment, Outcome.bind_eq_ok, Outcome.pure_eq_ok] at accepted
  obtain ⟨port, -, size, -, limit, -, _, checked, rfl⟩ := accepted
  exact hasPageSizes_of_checkPageSizes checked

/-- The page size of a request: what it asks for or the default, up to the greatest. -/
def sizeFor (configuration : Configuration) (limit : Option Int64) : Int64 :=
  min (limit.getD configuration.defaultPageSize) configuration.maxPageSize

theorem sizeFor_le (configuration : Configuration) (limit : Option Int64) :
    configuration.sizeFor limit ≤ configuration.maxPageSize := by
  change ite _ _ _ ≤ _
  split
  · assumption
  · exact Int64.le_refl _

theorem sizeFor_nonnegative (sizes : configuration.HasPageSizes)
    (wanted : 0 ≤ limit.getD configuration.defaultPageSize) :
    0 ≤ configuration.sizeFor limit := by
  have positive : 0 ≤ configuration.defaultPageSize := Int64.le_trans (by decide) sizes.1
  change 0 ≤ ite _ _ _
  split
  · exact wanted
  · exact Int64.le_trans positive sizes.2

theorem not_isNegativeRequest (sizes : configuration.HasPageSizes) :
    ¬IsNegativeRequest limit offset ↔
      0 ≤ limit.getD configuration.defaultPageSize ∧ 0 ≤ offset.getD 0 := by
  have positive : 0 ≤ configuration.defaultPageSize := Int64.le_trans (by decide) sizes.1
  rw [IsNegativeRequest, not_or]
  apply and_congr
  · cases limit with
    | none => simpa using positive
    | some wanted => simp [Int64.not_lt]
  · cases offset with
    | none => simp
    | some start => simp [Int64.not_lt]

/-- Only a negative request has no page. -/
theorem page_of_possible (sizes : configuration.HasPageSizes)
    (possible : ¬IsNegativeRequest limit offset) :
    configuration.page limit offset = .ok ⟨configuration.sizeFor limit, offset.getD 0⟩ := by
  obtain ⟨wanted, start⟩ := (not_isNegativeRequest sizes).mp possible
  rw [page, if_neg (Int64.not_lt.mpr wanted), if_neg (Int64.not_lt.mpr start)]
  rfl

theorem page_of_negative (sizes : configuration.HasPageSizes)
    (negative : IsNegativeRequest limit offset) :
    ∃ fault, configuration.page limit offset = .error fault := by
  cases paged : configuration.page limit offset with
  | error fault => exact ⟨fault, rfl⟩
  | ok page =>
      obtain ⟨wanted, paged⟩ := Outcome.refuse_eq_ok.mp paged
      obtain ⟨start, -⟩ := Outcome.refuse_eq_ok.mp paged
      have possible := (not_isNegativeRequest sizes).mpr
        ⟨Int64.not_lt.mp wanted, Int64.not_lt.mp start⟩
      exact absurd negative possible

end Configuration

namespace Service

open Directory (slice)

theorem slice_of_nonnegative {α : Type} {limit : Int64} (nonnegative : 0 ≤ limit) (offset : Int64)
    (items : List α) :
    slice limit offset items = (items.drop offset.toInt.toNat).take limit.toInt.toNat := by
  rw [slice, if_neg (Int64.not_lt.mpr nonnegative)]

theorem length_slice_le {α : Type} {limit : Int64} (nonnegative : 0 ≤ limit) (offset : Int64)
    (items : List α) : ((slice limit offset items).length : Int) ≤ limit.toInt := by
  have least : 0 ≤ limit.toInt := Int64.le_iff_toInt_le.mp nonnegative
  have taken := List.length_take_le limit.toInt.toNat (items.drop offset.toInt.toNat)
  rw [slice_of_nonnegative nonnegative]
  omega

/-- Parts of one size, one after the other, are the whole. -/
theorem flatMap_parts {α : Type} (size count : Nat) (items : List α)
    (enough : items.length ≤ count * size) :
    (List.range count).flatMap (fun index => (items.drop (index * size)).take size) = items := by
  induction count generalizing items with
  | zero =>
      have none : items = [] := List.eq_nil_of_length_eq_zero (by omega)
      rw [none]
      rfl
  | succ count ih =>
      have fewer : (items.drop size).length ≤ count * size := by
        rw [Nat.succ_mul] at enough
        rw [List.length_drop]
        omega
      have later (index : Nat) : items.drop ((index + 1) * size) =
          (items.drop size).drop (index * size) := by
        rw [List.drop_drop, Nat.succ_mul, Nat.add_comm]
      rw [List.range_succ_eq_map, List.flatMap_cons, List.flatMap_map]
      simp only [later, Nat.zero_mul, List.drop_zero]
      rw [ih (items.drop size) fewer, List.take_append_drop]

/-- The multiples of the page size from zero on, up to a page that reaches `total`. -/
def PageOffsets (size : Int64) (total : Nat) (offsets : List Int64) : Prop :=
  offsets.map Int64.toInt =
      (List.range offsets.length).map (fun index : Nat => (index : Int) * size.toInt) ∧
    (total : Int) ≤ offsets.length * size.toInt

instance (size : Int64) (total : Nat) (offsets : List Int64) :
    Decidable (PageOffsets size total offsets) :=
  inferInstanceAs (Decidable (_ ∧ _))

/-- As long as they can be counted, there are offsets of all pages. -/
theorem exists_pageOffsets {size : Int64} (positive : 1 ≤ size) {total : Nat}
    (countable : total < 2 ^ 63) : ∃ offsets, PageOffsets size total offsets := by
  have least : 1 ≤ size.toInt := Int64.le_iff_toInt_le.mp positive
  obtain ⟨width, same⟩ := Int.eq_ofNat_of_zero_le (Int.le_trans (by decide) least)
  rw [same] at least
  have wide : 0 < width := Int.ofNat_le.mp least
  -- the last page starts at or before the end, so that its offset can be counted
  have bounded (index : Nat) (early : index ≤ total / width) : index * width < 2 ^ 63 := by
    have start : index * width ≤ total := (Nat.le_div_iff_mul_le wide).mp early
    omega
  refine ⟨(List.range (total / width + 1)).map fun index => Int64.ofNat (index * width), ?_, ?_⟩
  · rw [List.map_map, List.length_map, List.length_range, same]
    apply List.map_congr_left
    intro index member
    exact Int64.toInt_ofNat_of_lt (bounded index (Nat.le_of_lt_succ (List.mem_range.mp member)))
  · have last : total ≤ (total / width + 1) * width := by
      rw [Nat.succ_mul]
      exact Nat.le_of_lt (Nat.lt_div_mul_add wide)
    rw [List.length_map, List.length_range, same]
    exact Int.ofNat_le.mpr last

section Offsets

variable {size : Int64} (positive : 1 ≤ size) {offsets : List Int64} {total : Nat}
  (reach : PageOffsets size total offsets)

include positive reach

theorem offset_nonnegative {offset : Int64} (member : offset ∈ offsets) : 0 ≤ offset := by
  have least : 1 ≤ size.toInt := Int64.le_iff_toInt_le.mp positive
  have listed : offset.toInt ∈ offsets.map Int64.toInt := List.mem_map_of_mem member
  rw [reach.1] at listed
  obtain ⟨index, -, same⟩ := List.mem_map.mp listed
  apply Int64.le_iff_toInt_le.mpr
  rw [← same]
  exact Int.mul_nonneg (Int.natCast_nonneg index) (Int.le_trans (by decide) least)

/-- The parts of a list at all offsets are the list. -/
theorem flatMap_slice {α : Type} {items : List α} (whole : items.length = total) :
    offsets.flatMap (fun offset => slice size offset items) = items := by
  have least : 1 ≤ size.toInt := Int64.le_iff_toInt_le.mp positive
  obtain ⟨width, same⟩ := Int.eq_ofNat_of_zero_le (Int.le_trans (by decide) least)
  obtain ⟨multiples, enough⟩ := reach
  have counted : items.length ≤ offsets.length * width := by
    rw [← whole, same] at enough
    exact Int.ofNat_le.mp enough
  have nonnegative : 0 ≤ size := Int64.le_trans (by decide) positive
  have start (index : Nat) : ((index : Int) * size.toInt).toNat = index * width := by
    rw [same]
    rfl
  have taken : size.toInt.toNat = width := by
    rw [same]
    rfl
  calc offsets.flatMap (fun offset => slice size offset items)
    _ = (offsets.map Int64.toInt).flatMap (fun start => (items.drop start.toNat).take width) := by
        simp only [slice_of_nonnegative nonnegative, taken, List.flatMap_map]
    _ = (List.range offsets.length).flatMap
          (fun index => (items.drop (index * width)).take width) := by
        rw [multiples, List.flatMap_map]
        simp only [start]
    _ = items := flatMap_parts width offsets.length items counted

end Offsets

section Answers

variable {service : Service} {search : Search} {predicate : Predicate}
  {limit offset : Option Int64}

theorem searchPartners_of_refused {fault : PageFault}
    (refused : service.configuration.page limit offset = .error fault) :
    service.searchPartners (.ok search) limit offset = .error (.paging fault) := by
  rw [searchPartners, refused]
  rfl

variable (compiled : search.compile service.registry Directory.schema Directory.root =
    .ok predicate)
  (executed : service.directory.Executes predicate)

include compiled executed

/-- Once a search has compiled and its statements are executed, a page is answered. -/
theorem searchPartners_of_page {page : Page}
    (paged : service.configuration.page limit offset = .ok page) :
    service.searchPartners (.ok search) limit offset =
      .ok ⟨slice page.limit page.offset (service.directory.listing predicate),
        (service.directory.listing predicate).length, page.limit, page.offset⟩ := by
  have listed : service.directory.list predicate (some page.limit) (some page.offset) =
      .ok (slice page.limit page.offset (service.directory.listing predicate)) :=
    executed.list (some page.limit) (some page.offset)
  have counted : service.directory.count predicate =
      .ok (service.directory.listing predicate).length := by
    rw [executed.count, (Directory.listing_perm _ _).length_eq]
  simp only [searchPartners, Outcome.bind_eq_ok, Outcome.mapError_eq_ok, Outcome.pure_eq_ok]
  exact ⟨search, rfl, page, paged, predicate, compiled, _, listed, _, counted, rfl⟩

variable (sizes : service.configuration.HasPageSizes)

include sizes

/-- With the tables in place a compiled search is a bad request only if it is negative. -/
theorem searchPartners_refused_iff :
    (∃ failure, service.searchPartners (.ok search) limit offset = .error failure ∧
      failure.status = 400) ↔ IsNegativeRequest limit offset := by
  constructor
  · intro refused
    obtain ⟨failure, failed, -⟩ := refused
    by_contra possible
    have answered := searchPartners_of_page compiled executed
      (Configuration.page_of_possible sizes possible)
    rw [failed] at answered
    cases answered
  · intro negative
    obtain ⟨fault, refused⟩ := Configuration.page_of_negative sizes negative
    exact ⟨.paging fault, searchPartners_of_refused refused, rfl⟩

/-- Pages of one size, one after the other, are the listing. -/
theorem mapM_searchPartners {size : Int64} (positive : 1 ≤ size)
    (capped : size ≤ service.configuration.maxPageSize) {offsets : List Int64}
    (reach : PageOffsets size (service.directory.listing predicate).length offsets) :
    ∃ pages, offsets.mapM (fun offset =>
        service.searchPartners (.ok search) (some size) (some offset)) = .ok pages ∧
      pages.flatMap PartnerPage.items = service.directory.listing predicate := by
  let pageAt (offset : Int64) : PartnerPage :=
    ⟨slice size offset (service.directory.listing predicate),
      (service.directory.listing predicate).length, size, offset⟩
  have answered : ∀ offset ∈ offsets,
      service.searchPartners (.ok search) (some size) (some offset) = .ok (pageAt offset) := by
    intro offset member
    have start := offset_nonnegative positive reach member
    have wanted : 0 ≤ size := Int64.le_trans (by decide) positive
    have possible : ¬IsNegativeRequest (some size) (some offset) :=
      (Configuration.not_isNegativeRequest sizes).mpr ⟨wanted, start⟩
    have answer := searchPartners_of_page compiled executed
      (Configuration.page_of_possible sizes possible)
    have whole : service.configuration.sizeFor (some size) = size := if_pos capped
    rw [whole] at answer
    exact answer
  refine ⟨offsets.map pageAt, ?_, ?_⟩
  · apply Outcome.mapM_eq_ok.mpr
    rw [List.forall₂_map_right_iff, List.forall₂_same]
    exact answered
  · rw [List.flatMap_map]
    exact flatMap_slice positive reach rfl

end Answers

/-- The sample directory with the standard configuration. -/
def sample : Service := ⟨Directory.sample, Directory.registry, {}⟩

end Service

end PartnerSearch
