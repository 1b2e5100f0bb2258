/-
  Provision.Proofs.Page.Lookup

  What a search by path answers, over all targets and all sites. It finds the one page with the
  longest path that the target starts with (`Registry.LongestPrefix`), in whatever order the pages
  were registered. One more page is found only where it is the longest (`Registry.Gains`), and
  every other answer stays as it was (`Registry.findByPath_finds_longest`).
-/
import Provision.Proofs.Page.Registration

namespace Provision.Registry

open Http

variable {registry registry' : Registry} {page : Page} {target : String}

/-- The path of a page starts a target, and every other path that does is shorter. -/
structure LongestPrefix (registry : Registry) (target : String) (page : Page) : Prop where
  registered : page ∈ registry.pages
  starts : utf8 page.path <+: utf8 target
  longer : ∀ other ∈ registry.pages, other.path ≠ page.path → utf8 other.path <+: utf8 target →
    other.path.utf8ByteSize < page.path.utf8ByteSize

/-- A page is added and is found for a target for which no page was found, or one with a shorter
    path. -/
structure Gains (registry : Registry) (page : Page) (target : String) : Prop where
  admits : registry.Admits page
  starts : utf8 page.path <+: utf8 target
  longer : ∀ previous, registry.findByPath target = some previous →
    previous.path.utf8ByteSize < page.path.utf8ByteSize

/-! ## The answer to one target -/

/-- Different paths that start the same target differ in length. -/
theorem utf8ByteSize_ne_of_prefix {other : Page} (hpath : other.path ≠ page.path)
    (hother : utf8 other.path <+: utf8 target) (hpage : utf8 page.path <+: utf8 target) :
    other.path.utf8ByteSize ≠ page.path.utf8ByteSize := by
  intro hsize
  rw [← length_utf8, ← length_utf8] at hsize
  have hstarts := List.prefix_of_prefix_length_le hother hpage (Nat.le_of_eq hsize)
  exact hpath (utf8_inj.mp (hstarts.eq_of_length hsize))

theorem foundAt_iff_longestPrefix :
    registry.FoundAt target page ↔ registry.LongestPrefix target page := by
  constructor
  · intro h
    refine ⟨h.registered, h.starts, fun other hother hpath hstarts => ?_⟩
    have hle := h.longest other hother hstarts
    have hne := utf8ByteSize_ne_of_prefix hpath hstarts h.starts
    omega
  · intro h
    refine ⟨h.registered, h.starts, fun other hother hstarts => ?_⟩
    by_cases hpath : other.path = page.path
    · rw [hpath]
    · exact Nat.le_of_lt (h.longer other hother hpath hstarts)

theorem findByPath_eq_some_iff_longestPrefix (hvalid : registry.Valid) :
    registry.findByPath target = some page ↔ registry.LongestPrefix target page := by
  rw [findByPath_eq_some_iff hvalid, foundAt_iff_longestPrefix]

theorem findByPath_eq_none_iff :
    registry.findByPath target = none ↔
      ∀ page ∈ registry.pages, ¬ utf8 page.path <+: utf8 target := by
  rcases exists_findByPath registry target with ⟨hfind, hnone⟩ | ⟨found, hfind, hfound⟩
  · exact iff_of_true hfind hnone
  · refine iff_of_false (by simp [hfind]) fun hnone => ?_
    exact hnone found hfound.registered hfound.starts

/-! ## Other orders -/

theorem LongestPrefix.of_same_pages (hsame : ∀ page, page ∈ registry.pages ↔ page ∈ registry'.pages)
    (h : registry.LongestPrefix target page) : registry'.LongestPrefix target page := by
  refine ⟨(hsame page).mp h.registered, h.starts, fun other hother => ?_⟩
  exact h.longer other ((hsame other).mpr hother)

theorem findByPath_eq_of_same_pages (hvalid : registry.Valid) (hvalid' : registry'.Valid)
    (hsame : ∀ page, page ∈ registry.pages ↔ page ∈ registry'.pages) (target : String) :
    registry.findByPath target = registry'.findByPath target := by
  apply Option.ext
  intro page
  rw [findByPath_eq_some_iff_longestPrefix hvalid, findByPath_eq_some_iff_longestPrefix hvalid']
  exact ⟨.of_same_pages hsame, .of_same_pages fun page => (hsame page).symm⟩

/-! ## One more page -/

/-- Nothing stands against a page that can be added. -/
theorem Admits.not_objection {error : RegistryError} (h : registry.Admits page) :
    ¬ registry.Objection page error := by
  intro hobjection
  have hform : page.WellFormed := ⟨h.path_short, h.path_slash, h.title_short⟩
  obtain ⟨-, ⟨hrole, other, hother, hclaimed⟩ | ⟨hrole, other, hother, hclaimed⟩ | hfull⟩ :=
    hobjection.of_wellFormed hform
  · simp [h.home_free hrole other hother] at hclaimed
  · simp [h.captivePortal_free hrole other hother] at hclaimed
  · exact absurd h.room (Nat.not_lt_of_le hfull)

theorem Admits.path_not_mem (h : registry.Admits page) : page.path ∉ registry.paths := by
  intro hknown
  obtain ⟨other, hother, hpath⟩ := List.mem_map.mp hknown
  exact h.path_free other hother hpath

theorem offer_of_admits (h : registry.Admits page) :
    registry.offer page = { registry with pages := registry.pages ++ [page] } := by
  have hadmission := register_admission registry page
  generalize registry.offer page = after at hadmission ⊢
  generalize (registry.register page).map _ = answer at hadmission
  cases hadmission with
  | refused hobjection => exact absurd hobjection h.not_objection
  | known hform hknown => exact absurd hknown h.path_not_mem
  | added => rfl

theorem offer_of_not_admits (h : ¬ registry.Admits page) : registry.offer page = registry := by
  have hadmission := register_admission registry page
  generalize registry.offer page = after at hadmission ⊢
  generalize (registry.register page).map _ = answer at hadmission
  cases hadmission with
  | refused | known => rfl
  | added hadmits => exact absurd hadmits h

/-- A page that comes last is compared with what was found among the others. -/
theorem findByPath_append (pages : List Page) (banner : String) (maxPages : Nat) :
    findByPath ⟨pages ++ [page], banner, maxPages⟩ target =
      if serves page target then longer (findByPath ⟨pages, banner, maxPages⟩ target) page
      else findByPath ⟨pages, banner, maxPages⟩ target := by
  unfold findByPath
  rw [List.filter_append, List.foldl_append]
  by_cases hserves : serves page target = true
  · simp [hserves]
  · simp [hserves]

theorem Gains.findByPath_offer (h : registry.Gains page target) :
    (registry.offer page).findByPath target = some page := by
  rw [offer_of_admits h.admits, findByPath_append, if_pos (serves_iff.mpr h.starts)]
  cases hfind : registry.findByPath target with
  | none => rfl
  | some previous =>
    have hlonger := h.longer previous hfind
    exact if_neg (Nat.not_lt_of_lt hlonger)

theorem foundAt_of_findByPath (h : registry.findByPath target = some page) :
    registry.FoundAt target page := by
  rcases exists_findByPath registry target with ⟨hfind, -⟩ | ⟨found, hfind, hfound⟩
  · rw [h] at hfind
    cases hfind
  · rw [h] at hfind
    exact Option.some.inj hfind ▸ hfound

/-- Where a page is not the longest, the answer is what it was. -/
theorem findByPath_offer_of_not_gains (h : ¬ registry.Gains page target) :
    (registry.offer page).findByPath target = registry.findByPath target := by
  by_cases hadmits : registry.Admits page
  · rw [offer_of_admits hadmits, findByPath_append]
    by_cases hserves : serves page target = true
    · rw [if_pos hserves]
      have hstarts := serves_iff.mp hserves
      cases hfind : registry.findByPath target with
      | none => exact absurd ⟨hadmits, hstarts, by simp [hfind]⟩ h
      | some previous =>
        have hfound := foundAt_of_findByPath hfind
        have hne := utf8ByteSize_ne_of_prefix (hadmits.path_free previous hfound.registered)
          hfound.starts hstarts
        have hnotShorter : ¬ previous.path.utf8ByteSize < page.path.utf8ByteSize := by
          intro hshorter
          refine h ⟨hadmits, hstarts, fun other hother => ?_⟩
          rw [hfind] at hother
          exact Option.some.inj hother ▸ hshorter
        -- the path of the new page is not registered, so a tie is ruled out as well
        exact if_pos (by omega)
    · rw [if_neg hserves]
  · rw [offer_of_not_admits hadmits]

/-- An answer changes exactly where the new page is the longest. -/
theorem findByPath_offer_ne_iff :
    (registry.offer page).findByPath target ≠ registry.findByPath target ↔
      registry.Gains page target := by
  constructor
  · intro hchanged
    by_contra hgains
    exact hchanged (findByPath_offer_of_not_gains hgains)
  · intro hgains hsame
    rw [hgains.findByPath_offer] at hsame
    exact absurd (hgains.longer page hsame.symm) (Nat.lt_irrefl _)

/-- Over all sites that pages were registered with, a search finds the page with the longest path
    that the target starts with, whatever the order of the pages. An attempt to register one more
    page changes the answer only to that page, and only where its path starts the target and the
    answer was none or had a shorter path. -/
theorem findByPath_finds_longest (banner : String) (maxPages : Nat) (calls : List Page) :
    let registry := (empty banner maxPages).registerAll calls
    (∀ target, (registry.findByPath target = none ↔
        ∀ page ∈ registry.pages, ¬ utf8 page.path <+: utf8 target) ∧
      ∀ page, registry.findByPath target = some page ↔ registry.LongestPrefix target page) ∧
    (∀ banner' maxPages' calls', let registry' := (empty banner' maxPages').registerAll calls'
      (∀ page, page ∈ registry.pages ↔ page ∈ registry'.pages) →
        ∀ target, registry.findByPath target = registry'.findByPath target) ∧
    ∀ page target,
      ((registry.offer page).findByPath target ≠ registry.findByPath target ↔
        registry.Gains page target) ∧
      (registry.Gains page target → (registry.offer page).findByPath target = some page) := by
  intro registry
  have hvalid : registry.Valid := valid_registerAll banner maxPages calls
  refine ⟨fun target => ⟨findByPath_eq_none_iff, fun page => ?_⟩, ?_, fun page target => ?_⟩
  · exact findByPath_eq_some_iff_longestPrefix hvalid
  · intro banner' maxPages' calls' registry' hsame target
    have hvalid' : registry'.Valid := valid_registerAll banner' maxPages' calls'
    exact findByPath_eq_of_same_pages hvalid hvalid' hsame target
  · exact ⟨findByPath_offer_ne_iff, Gains.findByPath_offer⟩

/-- A page below another, registered after it and before it. -/
theorem findByPath_finds_longest_below :
    let outer : Page := ⟨"/a", "Outer", .none, (· == .get), Handler.sendPage "out", .done (.ok ())⟩
    let inner : Page := ⟨"/a/b", "Inner", .none, (· == .get), Handler.sendPage "in", .done (.ok ())⟩
    let registry := (empty "Setup" 2).registerAll [outer]
    (registry.offer inner).findByPath "/a/bc" = some inner ∧
      ((empty "Setup" 2).registerAll [outer, inner]).findByPath "/a/bc" =
        ((empty "Setup" 2).registerAll [inner, outer]).findByPath "/a/bc" := by
  intro outer inner registry
  have hgains : registry.Gains inner "/a/bc" := by
    have hpages : registry.pages = [outer] := rfl
    have hfind : registry.findByPath "/a/bc" = some outer := rfl
    refine ⟨⟨by decide, by decide +kernel, by decide, ?_, ?_, ?_, by decide⟩, ?_, ?_⟩
    · simp [hpages, outer, inner]
    · simp [inner, Roles.none]
    · simp [inner, Roles.none]
    · decide +kernel
    · intro previous hprevious
      rw [hfind] at hprevious
      obtain rfl := Option.some.inj hprevious
      decide
  have hsame : ∀ page, page ∈ ((empty "Setup" 2).registerAll [outer, inner]).pages ↔
      page ∈ ((empty "Setup" 2).registerAll [inner, outer]).pages := by
    intro page
    have hpages : ((empty "Setup" 2).registerAll [outer, inner]).pages = [outer, inner] := rfl
    have hpages' : ((empty "Setup" 2).registerAll [inner, outer]).pages = [inner, outer] := rfl
    rw [hpages, hpages', List.mem_pair, List.mem_pair]
    exact or_comm
  refine ⟨((findByPath_finds_longest "Setup" 2 [outer]).2.2 inner "/a/bc").2 hgains, ?_⟩
  exact (findByPath_finds_longest "Setup" 2 [outer, inner]).2.1 "Setup" 2 [inner, outer] hsame _

end Provision.Registry
