/-
  Provision.Proofs.Portal.Pages

  The registry that a device is set up with, and which of its two pages a target finds.
  Neither page's path is a prefix of the other's, so a target finds at most one of them.
-/
import Provision.Portal
import Provision.Proofs.Page.Registry

namespace Provision.Portal

/-- A registry with the home page and the captive portal. -/
def pages (hostname banner : String) (maxPages : Nat) : Registry :=
  ⟨[Home.page hostname, WifiSetup.page], banner, maxPages⟩

theorem mem_pages_iff {hostname banner : String} {maxPages : Nat} {page : Page} :
    page ∈ (pages hostname banner maxPages).pages ↔
      page = Home.page hostname ∨ page = WifiSetup.page := by
  simp [pages]

theorem eq_pages_of_register {hostname banner : String} {maxPages : Nat} {registry : Registry}
    (h : register hostname (.empty banner maxPages) = (.ok (), registry)) :
    registry = pages hostname banner maxPages := by
  unfold register at h
  cases hfirst : Registry.register (.empty banner maxPages) (Home.page hostname) with
  | error e => simp [hfirst] at h
  | ok first =>
    obtain rfl := Registry.eq_of_register_eq_ok rfl hfirst
    rw [hfirst] at h
    simp only at h
    split at h
    · cases h
    · rename_i second hsecond
      obtain rfl := Registry.eq_of_register_eq_ok rfl hsecond
      exact (Prod.mk.inj h).2.symm

/-! ## Finding a page -/

theorem homePage_of_eq_pages {registry : Registry} {hostname banner : String} {maxPages : Nat}
    (h : registry = pages hostname banner maxPages) :
    registry.homePage = some (Home.page hostname) := by
  rw [h]
  rfl

theorem not_serves_both {target : String} (hostname : String)
    (h : Registry.serves WifiSetup.page target = true) :
    Registry.serves (Home.page hostname) target = false := by
  by_contra hhome
  rw [Bool.not_eq_false] at hhome
  rw [Registry.serves_iff] at h hhome
  have hshorter : (utf8 Home.path).length ≤ (utf8 WifiSetup.path).length := by decide
  have hstarts : utf8 Home.path <+: utf8 WifiSetup.path :=
    List.prefix_of_prefix_length_le hhome h hshorter
  exact absurd hstarts (by decide)

theorem findByPath_pages (hostname banner : String) (maxPages : Nat) (target : String) :
    (pages hostname banner maxPages).findByPath target =
      if Registry.serves WifiSetup.page target then some WifiSetup.page
      else if Registry.serves (Home.page hostname) target then some (Home.page hostname)
      else none := by
  unfold Registry.findByPath pages
  by_cases hsetup : Registry.serves WifiSetup.page target = true
  · simp [hsetup, not_serves_both hostname hsetup, Registry.longer]
  · by_cases hhome : Registry.serves (Home.page hostname) target = true
    · simp [hsetup, hhome, Registry.longer]
    · simp [hsetup, hhome]

end Provision.Portal
