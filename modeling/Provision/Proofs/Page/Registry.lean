/-
  Provision.Proofs.Page.Registry

  Registries that pages were registered with. Whatever was refused on the way, no two pages
  share a path or a role (`Registry.Valid`), so what finds a page finds the only one: the
  one with the longest path that the target starts with (`findByPath_eq_some_iff`), or the
  one with the role of the root (`findRoot_eq_some_iff`).
-/
import Mathlib.Data.List.Infix
import Mathlib.Data.List.Pairwise
import Mathlib.Tactic.SplitIfs
import Provision.Page.Registry

namespace Provision.Registry

open Http

variable {registry registry' : Registry} {page : Page}

/-! ## Registering pages -/

/-- The registry after a page was registered, as it was before if the page was refused. -/
def offer (registry : Registry) (page : Page) : Registry :=
  match registry.register page with
  | .ok registry' => registry'
  | .error _ => registry

/-- The registry after pages were registered one by one. -/
def registerAll (registry : Registry) (calls : List Page) : Registry := calls.foldl offer registry

/-- The page can be added to the registry. -/
structure Admits (registry : Registry) (page : Page) : Prop where
  path_short : page.path.utf8ByteSize ≤ maxPathLength
  path_slash : (utf8 page.path).head? = some Byte.slash
  title_short : page.title.utf8ByteSize ≤ maxTitleLength
  path_free : ∀ other ∈ registry.pages, other.path ≠ page.path
  home_free : page.roles.home = true → ∀ other ∈ registry.pages, other.roles.home = false
  captivePortal_free : page.roles.captivePortal = true →
    ∀ other ∈ registry.pages, other.roles.captivePortal = false
  room : registry.pages.length < registry.maxPages

theorem hasRole_homeOnly_eq_false_iff :
    registry.hasRole .homeOnly = false ↔ ∀ other ∈ registry.pages, other.roles.home = false := by
  simp [hasRole, Roles.contains, Roles.homeOnly]

theorem hasRole_captivePortalOnly_eq_false_iff :
    registry.hasRole .captivePortalOnly = false ↔
      ∀ other ∈ registry.pages, other.roles.captivePortal = false := by
  simp [hasRole, Roles.contains, Roles.captivePortalOnly]

/-- A page that is registered was there under its path, or is added behind the others. -/
theorem register_cases (h : registry.register page = .ok registry') :
    registry.hasPath page.path = true ∧ registry' = registry ∨
      registry.Admits page ∧ registry' = { registry with pages := registry.pages ++ [page] } := by
  unfold register at h
  split_ifs at h with hlong hslash htitle hpath hhome hcaptivePortal hfull
  · exact Or.inl ⟨hpath, (Except.ok.inj h).symm⟩
  · refine Or.inr ⟨?_, (Except.ok.inj h).symm⟩
    exact {
      path_short := by omega
      path_slash := by simpa using hslash
      title_short := by omega
      path_free := by simpa [hasPath] using hpath
      home_free := fun hrole => hasRole_homeOnly_eq_false_iff.mp (by simpa [hrole] using hhome)
      captivePortal_free := fun hrole =>
        hasRole_captivePortalOnly_eq_false_iff.mp (by simpa [hrole] using hcaptivePortal)
      room := by omega }

/-- A page that is registered under a path of its own comes last. -/
theorem eq_of_register_eq_ok (hpath : registry.hasPath page.path = false)
    (h : registry.register page = .ok registry') :
    registry' = { registry with pages := registry.pages ++ [page] } := by
  rcases register_cases h with ⟨hthere, -⟩ | ⟨-, hadded⟩
  · rw [hpath] at hthere
    cases hthere
  · exact hadded

/-- What holds of a registry whatever pages it was offered. -/
structure Valid (registry : Registry) : Prop where
  path_short : ∀ page ∈ registry.pages, page.path.utf8ByteSize ≤ maxPathLength
  path_slash : ∀ page ∈ registry.pages, (utf8 page.path).head? = some Byte.slash
  title_short : ∀ page ∈ registry.pages, page.title.utf8ByteSize ≤ maxTitleLength
  /-- No two pages share a path. -/
  paths : registry.pages.Pairwise fun page other => page.path ≠ other.path
  /-- No two pages are the home page. -/
  homes : registry.pages.Pairwise fun page other => ¬ (page.roles.home ∧ other.roles.home)
  /-- No two pages are the captive portal. -/
  captivePortals : registry.pages.Pairwise fun page other =>
    ¬ (page.roles.captivePortal ∧ other.roles.captivePortal)
  size : registry.pages.length ≤ registry.maxPages

theorem valid_empty (banner : String) (maxPages : Nat) : (empty banner maxPages).Valid := by
  constructor <;> simp [empty]

theorem Valid.add (hvalid : registry.Valid) (h : registry.Admits page) :
    Valid { registry with pages := registry.pages ++ [page] } := by
  have hall : ∀ {p : Page → Prop}, (∀ other ∈ registry.pages, p other) → p page →
      ∀ other ∈ registry.pages ++ [page], p other := by
    intro p hpages hpage
    exact List.forall_mem_append.mpr ⟨hpages, List.forall_mem_singleton.mpr hpage⟩
  have hpairwise : ∀ {r : Page → Page → Prop}, registry.pages.Pairwise r →
      (∀ other ∈ registry.pages, r other page) → (registry.pages ++ [page]).Pairwise r := by
    intro r hpages hpage
    rw [List.pairwise_append]
    refine ⟨hpages, List.pairwise_singleton _ _, fun other hother last hlast => ?_⟩
    rw [List.mem_singleton.mp hlast]
    exact hpage other hother
  exact {
    path_short := hall hvalid.path_short h.path_short
    path_slash := hall hvalid.path_slash h.path_slash
    title_short := hall hvalid.title_short h.title_short
    paths := hpairwise hvalid.paths h.path_free
    homes := hpairwise hvalid.homes fun other hother hboth => by
      simp [h.home_free hboth.2 other hother] at hboth
    captivePortals := hpairwise hvalid.captivePortals fun other hother hboth => by
      simp [h.captivePortal_free hboth.2 other hother] at hboth
    size := by
      have hroom := h.room
      simp only [List.length_append, List.length_singleton]
      omega }

theorem Valid.offer (hvalid : registry.Valid) (page : Page) : (registry.offer page).Valid := by
  unfold Registry.offer
  cases hregister : registry.register page with
  | error e => exact hvalid
  | ok registry' =>
    rcases register_cases hregister with ⟨-, rfl⟩ | ⟨hadmits, rfl⟩
    · exact hvalid
    · exact hvalid.add hadmits

theorem Valid.registerAll (hvalid : registry.Valid) (calls : List Page) :
    (registry.registerAll calls).Valid := by
  induction calls generalizing registry with
  | nil => exact hvalid
  | cons page calls ih => exact ih (hvalid.offer page)

/-- Two pages of a list that rules them out as a pair are one. -/
theorem eq_of_pairwise {r : Page → Page → Prop} {pages : List Page} {other : Page}
    (h : pages.Pairwise r) (hpage : page ∈ pages) (hother : other ∈ pages) (hno : ¬ r page other)
    (hno' : ¬ r other page) : page = other := by
  induction h with
  | nil => cases hpage
  | cons hfirst _ ih =>
    rcases List.mem_cons.mp hpage with rfl | hpage' <;>
      rcases List.mem_cons.mp hother with rfl | hother'
    · rfl
    · exact absurd (hfirst other hother') hno
    · exact absurd (hfirst page hpage') hno'
    · exact ih hpage' hother'

/-- The pages that a site can have. -/
theorem valid_registerAll (banner : String) (maxPages : Nat) (calls : List Page) :
    ((empty banner maxPages).registerAll calls).Valid :=
  (valid_empty banner maxPages).registerAll calls

/-! ## Finding a page by its path -/

theorem serves_iff {target : String} :
    serves page target = true ↔ utf8 page.path <+: utf8 target :=
  List.isPrefixOf_iff_prefix

/-- The page whose path is the longest of those that the target starts with. -/
structure FoundAt (registry : Registry) (target : String) (page : Page) : Prop where
  registered : page ∈ registry.pages
  starts : utf8 page.path <+: utf8 target
  longest : ∀ other ∈ registry.pages, utf8 other.path <+: utf8 target →
    other.path.utf8ByteSize ≤ page.path.utf8ByteSize

theorem foldl_longer_some (pages : List Page) (best : Page) :
    ∃ found, pages.foldl longer (some best) = some found ∧ found ∈ best :: pages ∧
      ∀ other ∈ best :: pages, other.path.utf8ByteSize ≤ found.path.utf8ByteSize := by
  induction pages generalizing best with
  | nil => exact ⟨best, rfl, List.mem_singleton_self best, by simp⟩
  | cons page pages ih =>
    -- the better of this page and the best so far is at least as long as both
    rw [List.foldl_cons, longer]
    split
    · rename_i hshorter
      obtain ⟨found, hfold, hmem, hlongest⟩ := ih best
      refine ⟨found, hfold, ?_, ?_⟩
      · simp only [List.mem_cons] at hmem ⊢
        tauto
      · simp only [List.forall_mem_cons] at hlongest ⊢
        exact ⟨hlongest.1, by omega, hlongest.2⟩
    · rename_i hlonger
      obtain ⟨found, hfold, hmem, hlongest⟩ := ih page
      refine ⟨found, hfold, List.mem_cons_of_mem best hmem, ?_⟩
      simp only [List.forall_mem_cons] at hlongest ⊢
      exact ⟨by omega, hlongest⟩

variable (registry) in
/-- A search by path finds the longest that fits, or nothing where none does. -/
theorem exists_findByPath (target : String) :
    registry.findByPath target = none ∧
        (∀ page ∈ registry.pages, ¬ utf8 page.path <+: utf8 target) ∨
      ∃ page, registry.findByPath target = some page ∧ registry.FoundAt target page := by
  have hserving : ∀ page, page ∈ registry.pages.filter (serves · target) ↔
      page ∈ registry.pages ∧ utf8 page.path <+: utf8 target := by
    intro page
    rw [List.mem_filter, serves_iff]
  unfold findByPath
  cases hpages : registry.pages.filter (serves · target) with
  | nil =>
    refine Or.inl ⟨rfl, fun page hpage hstarts => ?_⟩
    have hmem := (hserving page).mpr ⟨hpage, hstarts⟩
    rw [hpages] at hmem
    exact absurd hmem List.not_mem_nil
  | cons first rest =>
    obtain ⟨found, hfold, hmem, hlongest⟩ := foldl_longer_some rest first
    rw [← hpages] at hmem hlongest
    obtain ⟨hregistered, hstarts⟩ := (hserving found).mp hmem
    refine Or.inr ⟨found, hfold, hregistered, hstarts, fun other hother hprefix => ?_⟩
    exact hlongest other ((hserving other).mpr ⟨hother, hprefix⟩)

theorem Valid.eq_of_path_eq {other : Page} (hvalid : registry.Valid) (hpage : page ∈ registry.pages)
    (hother : other ∈ registry.pages) (hpath : page.path = other.path) : page = other :=
  eq_of_pairwise hvalid.paths hpage hother (absurd hpath) (absurd hpath.symm)

/-- Paths of one length that start the same target are the same. -/
theorem FoundAt.unique {target : String} {other : Page} (hvalid : registry.Valid)
    (h : registry.FoundAt target page) (h' : registry.FoundAt target other) : page = other := by
  have hle := h'.longest page h.registered h.starts
  have hge := h.longest other h'.registered h'.starts
  rw [← length_utf8, ← length_utf8] at hle hge
  have hstarts : utf8 page.path <+: utf8 other.path :=
    List.prefix_of_prefix_length_le h.starts h'.starts hle
  have hpath : page.path = other.path := utf8_inj.mp (hstarts.eq_of_length_le hge)
  exact hvalid.eq_of_path_eq h.registered h'.registered hpath

theorem findByPath_eq_some_iff (hvalid : registry.Valid) {target : String} :
    registry.findByPath target = some page ↔ registry.FoundAt target page := by
  rcases exists_findByPath registry target with ⟨hfind, hnone⟩ | ⟨found, hfind, hfound⟩
  · refine iff_of_false (by simp [hfind]) fun h => ?_
    exact hnone page h.registered h.starts
  · rw [hfind, Option.some_inj]
    refine ⟨?_, fun h => hfound.unique hvalid h⟩
    rintro rfl
    exact hfound

/-- The page with the role of the root. -/
structure FoundAtRoot (registry : Registry) (accessPoint : Bool) (page : Page) : Prop where
  registered : page ∈ registry.pages
  role : (if accessPoint then page.roles.captivePortal else page.roles.home) = true

theorem mem_of_findRoot {accessPoint : Bool} (h : registry.findRoot accessPoint = some page) :
    page ∈ registry.pages :=
  List.mem_of_find?_eq_some h

theorem FoundAtRoot.unique {accessPoint : Bool} {other : Page} (hvalid : registry.Valid)
    (h : registry.FoundAtRoot accessPoint page) (h' : registry.FoundAtRoot accessPoint other) :
    page = other := by
  have hrole := h.role
  have hrole' := h'.role
  cases accessPoint with
  | false =>
    exact eq_of_pairwise hvalid.homes h.registered h'.registered (fun hno => hno ⟨hrole, hrole'⟩)
      fun hno => hno ⟨hrole', hrole⟩
  | true =>
    exact eq_of_pairwise hvalid.captivePortals h.registered h'.registered
      (fun hno => hno ⟨hrole, hrole'⟩) fun hno => hno ⟨hrole', hrole⟩

end Provision.Registry
