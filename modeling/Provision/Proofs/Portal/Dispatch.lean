/-
  Provision.Proofs.Portal.Dispatch

  A connection to the two pages, run against a device up to the handler that answers it.
  A GET leaves the device alone whatever page it finds; a POST reaches a handler only if
  its target starts with the captive portal's path.
-/
import Provision.Proofs.Page.Dispatch
import Provision.Proofs.Portal.Handlers
import Provision.Proofs.Portal.Pages

namespace Provision.Site

open Http

variable (site : Site)

/-! ## Down to the handler -/

/-- The handlers that answer a GET only show their pages. -/
theorem plain_handler_get {hostname banner : String} {maxPages : Nat} {request : Request}
    {page : Page} (hpage : page ∈ (Portal.pages hostname banner maxPages).pages)
    (hmethod : request.method = .get) :
    (page.handler request.method).OnlyAsks PageCall.Plain := by
  rw [hmethod]
  rcases Portal.mem_pages_iff.mp hpage with rfl | rfl
  · exact Home.plain_onGet hostname
  · exact WifiSetup.plain_onGet

/-- A page that answers a GET. -/
theorem run_visitPage_get {hostname banner : String} {maxPages : Nat} {request : Request}
    {page : Page} (hpage : page ∈ (Portal.pages hostname banner maxPages).pages)
    (hmethod : request.method = .get) (depth : Nat) (device : Device) (visit : Visit) :
    ∃ bodies result after,
      device.run (site.visitPage depth request page visit) = (some (result, after), device) ∧
      visit.Answered site page.title bodies result after := by
  unfold visitPage
  rw [hmethod]
  rcases Portal.mem_pages_iff.mp hpage with rfl | rfl
  · exact ⟨_, Home.run_onGet site request _ _ hostname device visit⟩
  · exact ⟨_, WifiSetup.run_onGet site request _ _ device visit⟩

theorem run_visitPage_post {request : Request} (hmethod : request.method = .post) (depth : Nat)
    (device : Device) (visit : Visit) :
    device.run (site.visitPage depth request WifiSetup.page visit) =
      device.run (WifiSetup.onPost.perform site request WifiSetup.page
        (site.showHome request depth) visit) := by
  unfold visitPage
  rw [hmethod]
  rfl

/-! ## The page for a request -/

theorem mem_of_findByPath_pages {hostname banner : String} {maxPages : Nat} {target : String}
    {page : Page} (h : (Portal.pages hostname banner maxPages).findByPath target = some page) :
    page ∈ (Portal.pages hostname banner maxPages).pages := by
  rw [Portal.findByPath_pages] at h
  split_ifs at h <;> obtain rfl := Option.some.inj h <;> simp [Portal.mem_pages_iff]

/-- A POST finds a page that answers it only at the captive portal's path. -/
theorem filter_findByPath_post {hostname banner : String} {maxPages : Nat} {target : String} :
    (((Portal.pages hostname banner maxPages).findByPath target).filter
      fun page => page.supports .post) =
      if Registry.serves WifiSetup.page target then some WifiSetup.page else none := by
  rw [Portal.findByPath_pages]
  split_ifs <;> rfl

end Provision.Site
