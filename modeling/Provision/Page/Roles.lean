/-
  Provision.Page.Roles

  The roles that make a page the one served at the root of the site.
-/

namespace Provision

/-- The roles of a page. -/
structure Roles where
  /-- Served at the root while the device is a client of a network. -/
  home : Bool
  /-- Served at the root while the device runs its own access point. -/
  captivePortal : Bool
deriving DecidableEq

namespace Roles

def none : Roles := ⟨false, false⟩

def homeOnly : Roles := ⟨true, false⟩

def captivePortalOnly : Roles := ⟨false, true⟩

def union (a b : Roles) : Roles := ⟨a.home || b.home, a.captivePortal || b.captivePortal⟩

/-- True when every role of `b` is one of `a`, and there is at least one. -/
def contains (a b : Roles) : Bool :=
  (b.home || b.captivePortal) && (!b.home || a.home) && (!b.captivePortal || a.captivePortal)

/-- The printed form: a bit for each role. -/
def describe (roles : Roles) : String :=
  "PageFlags(" ++ toString ((if roles.home then 1 else 0) + if roles.captivePortal then 2 else 0) ++
    ")"

end Roles

end Provision
