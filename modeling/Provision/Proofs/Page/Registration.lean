/-
  Provision.Proofs.Page.Registration

  What comes of every attempt to register a page, whatever was registered before: it is refused
  for a reason that stands against it, or it is there already, or it is added behind the others
  (`Registry.Admission`). So the rules of a registry hold after any attempts
  (`Registry.registerAll_invariant`).
-/
import Mathlib.Data.List.Count
import Provision.Proofs.Page.Registry

namespace Provision

open Http

/-- The path and the title of a page are allowed. -/
structure Page.WellFormed (page : Page) : Prop where
  path_short : page.path.utf8ByteSize ≤ maxPathLength
  path_slash : (utf8 page.path).head? = some Byte.slash
  title_short : page.title.utf8ByteSize ≤ maxTitleLength

namespace Registry

variable {registry registry' : Registry} {page : Page}

def paths (registry : Registry) : List String := registry.pages.map Page.path

/-- A page has the role of the home page. -/
def HasHome (registry : Registry) : Prop := ∃ other ∈ registry.pages, other.roles.home = true

/-- A page has the role of the captive portal. -/
def HasCaptivePortal (registry : Registry) : Prop :=
  ∃ other ∈ registry.pages, other.roles.captivePortal = true

/-- The reasons that stand against a page. Of a page whose path is registered, roles and room do
    not matter. -/
inductive Objection (registry : Registry) (page : Page) : RegistryError → Prop
  | pathTooLong (h : maxPathLength < page.path.utf8ByteSize) : Objection registry page .pathTooLong
  | invalidPath (h : (utf8 page.path).head? ≠ some Byte.slash) :
    Objection registry page .invalidPath
  | titleTooLong (h : maxTitleLength < page.title.utf8ByteSize) :
    Objection registry page .titleTooLong
  | homeClaimed (hnew : page.path ∉ registry.paths) (hrole : page.roles.home = true)
    (h : registry.HasHome) : Objection registry page .homeClaimed
  | captivePortalClaimed (hnew : page.path ∉ registry.paths)
    (hrole : page.roles.captivePortal = true) (h : registry.HasCaptivePortal) :
    Objection registry page .captivePortalClaimed
  | full (hnew : page.path ∉ registry.paths) (h : registry.maxPages ≤ registry.pages.length) :
    Objection registry page (.full registry.maxPages)

/-- What an attempt to register a page answers, and the registry after it. -/
inductive Admission (registry : Registry) (page : Page) :
    Except RegistryError Unit → Registry → Prop
  | refused {error : RegistryError} (h : registry.Objection page error) :
    Admission registry page (.error error) registry
  /-- The path is registered already, whatever else is asked for it. -/
  | known (hform : page.WellFormed) (hknown : page.path ∈ registry.paths) :
    Admission registry page (.ok ()) registry
  | added (h : registry.Admits page) :
    Admission registry page (.ok ()) { registry with pages := registry.pages ++ [page] }

/-! ## One attempt -/

theorem hasPath_iff {path : String} : registry.hasPath path = true ↔ path ∈ registry.paths := by
  simp [hasPath, paths]

theorem hasRole_homeOnly_iff : registry.hasRole .homeOnly = true ↔ registry.HasHome := by
  simp [hasRole, HasHome, Roles.contains, Roles.homeOnly]

theorem hasRole_captivePortalOnly_iff :
    registry.hasRole .captivePortalOnly = true ↔ registry.HasCaptivePortal := by
  simp [hasRole, HasCaptivePortal, Roles.contains, Roles.captivePortalOnly]

/-- A refusal names a reason that stands against the page. -/
theorem objection_of_register_eq_error {error : RegistryError}
    (h : registry.register page = .error error) : registry.Objection page error := by
  unfold register at h
  split_ifs at h with hlong hslash htitle hpath hhome hcaptivePortal hfull
  · exact Except.error.inj h ▸ .pathTooLong hlong
  · exact Except.error.inj h ▸ .invalidPath hslash
  · exact Except.error.inj h ▸ .titleTooLong htitle
  -- only a path that is not registered gets as far as the roles and the room
  all_goals rw [hasPath_iff] at hpath
  · rw [Bool.and_eq_true, hasRole_homeOnly_iff] at hhome
    exact Except.error.inj h ▸ .homeClaimed hpath hhome.1 hhome.2
  · rw [Bool.and_eq_true, hasRole_captivePortalOnly_iff] at hcaptivePortal
    exact Except.error.inj h ▸ .captivePortalClaimed hpath hcaptivePortal.1 hcaptivePortal.2
  · exact Except.error.inj h ▸ .full hpath hfull

theorem wellFormed_of_register_eq_ok (h : registry.register page = .ok registry') :
    page.WellFormed := by
  unfold register at h
  split_ifs at h with hlong hslash htitle
  all_goals exact ⟨by omega, by simpa using hslash, by omega⟩

theorem admits_of_register_eq_ok (hnew : page.path ∉ registry.paths)
    (h : registry.register page = .ok registry') : registry.Admits page := by
  rcases register_cases h with ⟨hknown, -⟩ | ⟨hadmits, -⟩
  · exact absurd (hasPath_iff.mp hknown) hnew
  · exact hadmits

variable (registry page) in
/-- Every attempt is settled by the registry and the page. -/
theorem register_admission :
    registry.Admission page ((registry.register page).map fun _ => ()) (registry.offer page) := by
  rw [offer]
  cases hregister : registry.register page with
  | error error => exact .refused (objection_of_register_eq_error hregister)
  | ok registry' =>
    rcases register_cases hregister with ⟨hknown, rfl⟩ | ⟨hadmits, rfl⟩
    · exact .known (wellFormed_of_register_eq_ok hregister) (hasPath_iff.mp hknown)
    · exact .added hadmits

/-- What stands against a page with an allowed path and title is that its path is not registered
    and that a role of it is claimed or no room is left. -/
theorem Objection.of_wellFormed {error : RegistryError} (h : registry.Objection page error)
    (hform : page.WellFormed) :
    page.path ∉ registry.paths ∧
      (page.roles.home = true ∧ registry.HasHome ∨
        page.roles.captivePortal = true ∧ registry.HasCaptivePortal ∨
        registry.maxPages ≤ registry.pages.length) := by
  cases h with
  | pathTooLong hlong => exact absurd hform.path_short (Nat.not_le_of_lt hlong)
  | invalidPath hslash => exact absurd hform.path_slash hslash
  | titleTooLong htitle => exact absurd hform.title_short (Nat.not_le_of_lt htitle)
  | homeClaimed hnew hrole hclaimed => exact ⟨hnew, Or.inl ⟨hrole, hclaimed⟩⟩
  | captivePortalClaimed hnew hrole hclaimed => exact ⟨hnew, Or.inr (Or.inl ⟨hrole, hclaimed⟩)⟩
  | full hnew hfull => exact ⟨hnew, Or.inr (Or.inr hfull)⟩

/-- No reason against a page is passed over. -/
theorem Objection.refused {reason : RegistryError} (h : registry.Objection page reason) :
    ∃ error, registry.register page = .error error := by
  cases hregister : registry.register page with
  | error error => exact ⟨error, rfl⟩
  | ok registry' =>
    exfalso
    obtain ⟨hnew, hagainst⟩ := h.of_wellFormed (wellFormed_of_register_eq_ok hregister)
    have hadmits := admits_of_register_eq_ok hnew hregister
    rcases hagainst with ⟨hrole, other, hother, hhome⟩ | ⟨hrole, other, hother, hportal⟩ | hfull
    · exact absurd hhome (by simp [hadmits.home_free hrole other hother])
    · exact absurd hportal (by simp [hadmits.captivePortal_free hrole other hother])
    · exact absurd hadmits.room (Nat.not_lt_of_le hfull)

/-- A path that is registered is accepted again, whatever roles are asked for it and however full
    the registry is. -/
theorem register_of_known (hform : page.WellFormed) (hknown : page.path ∈ registry.paths) :
    registry.register page = .ok registry := by
  cases hregister : registry.register page with
  | error error =>
    obtain ⟨hnew, -⟩ := (objection_of_register_eq_error hregister).of_wellFormed hform
    exact absurd hknown hnew
  | ok registry' =>
    rcases register_cases hregister with ⟨-, rfl⟩ | ⟨hadmits, -⟩
    · rfl
    · obtain ⟨other, hother, hpath⟩ := List.mem_map.mp hknown
      exact absurd hpath (hadmits.path_free other hother)

/-- A page with an allowed path and title that is not registered is refused exactly where a role
    of it is claimed or no room is left. -/
theorem refused_iff (hform : page.WellFormed) (hnew : page.path ∉ registry.paths) :
    (∃ error, registry.register page = .error error) ↔
      page.roles.home = true ∧ registry.HasHome ∨
        page.roles.captivePortal = true ∧ registry.HasCaptivePortal ∨
        registry.maxPages ≤ registry.pages.length := by
  constructor
  · rintro ⟨error, herror⟩
    exact ((objection_of_register_eq_error herror).of_wellFormed hform).2
  · rintro (⟨hrole, hclaimed⟩ | ⟨hrole, hclaimed⟩ | hfull)
    · exact (Objection.homeClaimed hnew hrole hclaimed).refused
    · exact (Objection.captivePortalClaimed hnew hrole hclaimed).refused
    · exact (Objection.full hnew hfull).refused

/-! ## All attempts -/

theorem exists_pages_registerAll (registry : Registry) (calls : List Page) :
    ∃ pages, registry.registerAll calls = { registry with pages } := by
  induction calls generalizing registry with
  | nil => exact ⟨registry.pages, rfl⟩
  | cons page calls ih =>
    obtain ⟨pages, hpages⟩ := ih (registry.offer page)
    refine ⟨pages, hpages.trans ?_⟩
    have hadmission := register_admission registry page
    generalize registry.offer page = after at hadmission ⊢
    generalize (registry.register page).map _ = answer at hadmission
    cases hadmission <;> rfl

theorem countP_le_one {role : Page → Bool} {pages : List Page}
    (h : pages.Pairwise fun page other => ¬ (role page = true ∧ role other = true)) :
    pages.countP role ≤ 1 := by
  induction h with
  | nil => simp
  | @cons page pages hfirst _ ih =>
    by_cases hrole : role page = true
    · -- the first page has the role, so none of the others has it
      have hnone : pages.countP role = 0 :=
        List.countP_eq_zero.mpr fun other hother hboth => hfirst other hother ⟨hrole, hboth⟩
      rw [List.countP_cons_of_pos hrole, hnone]
    · rwa [List.countP_cons_of_neg hrole]

/-- Whatever pages were offered to a registry and in whatever order, its paths are distinct and
    its paths and titles are allowed, no role is claimed twice, and there are no more pages than
    it has room for. One more attempt is refused for a reason that stands, finds its path
    registered, or adds its page behind the others. -/
theorem registerAll_invariant (banner : String) (maxPages : Nat) (calls : List Page) :
    let registry := (empty banner maxPages).registerAll calls
    registry.maxPages = maxPages ∧ registry.banner = banner ∧
    registry.paths.Nodup ∧ (∀ page ∈ registry.pages, page.WellFormed) ∧
    registry.pages.length ≤ maxPages ∧
    registry.pages.countP (·.roles.home) ≤ 1 ∧ registry.pages.countP (·.roles.captivePortal) ≤ 1 ∧
    ∀ page,
      registry.Admission page ((registry.register page).map fun _ => ()) (registry.offer page) ∧
      (page.WellFormed → page.path ∈ registry.paths → registry.register page = .ok registry) ∧
      (page.WellFormed → page.path ∉ registry.paths →
        ((∃ error, registry.register page = .error error) ↔
          page.roles.home = true ∧ registry.HasHome ∨
            page.roles.captivePortal = true ∧ registry.HasCaptivePortal ∨
            maxPages ≤ registry.pages.length)) := by
  intro registry
  have hvalid : registry.Valid := valid_registerAll banner maxPages calls
  obtain ⟨pages, hpages⟩ := exists_pages_registerAll (empty banner maxPages) calls
  have hmax : registry.maxPages = maxPages := congrArg Registry.maxPages hpages
  have hbanner : registry.banner = banner := congrArg Registry.banner hpages
  refine ⟨hmax, hbanner, List.pairwise_map.mpr hvalid.paths, fun page hpage => ?_, ?_,
    countP_le_one hvalid.homes, countP_le_one hvalid.captivePortals,
    fun page => ⟨register_admission registry page, register_of_known, ?_⟩⟩
  · exact ⟨hvalid.path_short page hpage, hvalid.path_slash page hpage,
      hvalid.title_short page hpage⟩
  · exact hmax ▸ hvalid.size
  · intro hform hnew
    rw [refused_iff hform hnew, hmax]

end Registry

end Provision
