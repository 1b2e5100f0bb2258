/-
  Provision.Page.Registry

  The pages of a site, in the order they were registered, and the two ways to find
  one: by the longest path that the target starts with, and by role.
-/
import Provision.Page.Handler

namespace Provision

open Http

/-- Most bytes in the title of a page. -/
def maxTitleLength : Nat := 31

/-- Why a page could not be registered. -/
inductive RegistryError where
  | pathTooLong
  | invalidPath
  | titleTooLong
  | full (pages : Nat)
  | homeClaimed
  | captivePortalClaimed
deriving DecidableEq

namespace RegistryError

def message : RegistryError → String
  | pathTooLong => "page path longer than " ++ toString maxPathLength ++ " bytes"
  | invalidPath => "page path must start with '/'"
  | titleTooLong => "page title longer than " ++ toString maxTitleLength ++ " bytes"
  | full pages => "registry is full (" ++ toString pages ++ " pages)"
  | homeClaimed => "another page is already the home page"
  | captivePortalClaimed => "another page is already the captive portal page"

end RegistryError

/-- The pages of a site. -/
structure Registry where
  /-- The pages, first registered first. -/
  pages : List Page
  banner : String
  maxPages : Nat

namespace Registry

def empty (banner : String) (maxPages : Nat) : Registry := ⟨[], banner, maxPages⟩

/-! ## Registering -/

def hasPath (registry : Registry) (path : String) : Bool :=
  registry.pages.any fun page => page.path == path

/-- True when some page has the role of `roles`. -/
def hasRole (registry : Registry) (roles : Roles) : Bool :=
  registry.pages.any fun page => page.roles.contains roles

/-- Registers a page. A path that is taken succeeds and changes nothing; a role that is
taken or a full registry refuses the page. -/
def register (registry : Registry) (page : Page) : Except RegistryError Registry :=
  if maxPathLength < page.path.utf8ByteSize then .error .pathTooLong
  else if (utf8 page.path).head? ≠ some Byte.slash then .error .invalidPath
  else if maxTitleLength < page.title.utf8ByteSize then .error .titleTooLong
  else if registry.hasPath page.path then .ok registry
  else if page.roles.home && registry.hasRole .homeOnly then .error .homeClaimed
  else if page.roles.captivePortal && registry.hasRole .captivePortalOnly then
    .error .captivePortalClaimed
  else if registry.maxPages ≤ registry.pages.length then .error (.full registry.maxPages)
  else .ok { registry with pages := registry.pages ++ [page] }

/-! ## Finding -/

/-- True when a target starts with the path of a page. -/
def serves (page : Page) (target : String) : Bool := (utf8 page.path).isPrefixOf (utf8 target)

/-- The later of two pages, unless the earlier one has the longer path. -/
def longer (best : Option Page) (page : Page) : Option Page :=
  match best with
  | none => some page
  | some other => if page.path.utf8ByteSize < other.path.utf8ByteSize then some other else some page

/-- The page for a target: of those whose path the target starts with, the one with the
longest path. -/
def findByPath (registry : Registry) (target : String) : Option Page :=
  (registry.pages.filter fun page => serves page target).foldl longer none

/-- The page for the root: the captive portal while the access point is up, and the home
page otherwise. -/
def findRoot (registry : Registry) (accessPoint : Bool) : Option Page :=
  registry.pages.find? fun page =>
    page.roles.contains (if accessPoint then .captivePortalOnly else .homeOnly)

def homePage (registry : Registry) : Option Page := registry.findRoot false

/-! ## The menu -/

def menuStart (banner : String) : String :=
  "<div>\n<h1 style=\"text-align:center;background-color:#3EE427;\">" ++ banner ++
    "</h1>\n</div>\n<div>\n<h3 style=\"background-color:#1E90FF;\">"

def linkStart : String := "&nbsp;<a href=\""

def linkMiddle : String := "\">"

def linkEnd : String := "</a>"

def menuItem (page : Page) : String := linkStart ++ page.path ++ linkMiddle ++ page.title ++ linkEnd

def menuEnd : String := "</h3>\n</div>\n"

/-- The links to all pages, in the order of registration. -/
def menuItems (pages : List Page) : String := pages.foldr (fun page rest => menuItem page ++ rest) ""

def menuText (registry : Registry) : String :=
  menuStart registry.banner ++ menuItems registry.pages ++ menuEnd

/-- The bytes of a link beside its path and its title. -/
def linkOverhead : Nat := linkStart.utf8ByteSize + linkMiddle.utf8ByteSize + linkEnd.utf8ByteSize

/-- The bytes that the links to all pages will take. -/
def linksLength (pages : List Page) : Nat :=
  pages.foldr (fun page rest =>
    linkOverhead + page.path.utf8ByteSize + page.title.utf8ByteSize + rest) 0

/-- The bytes that the menu will take, counted before it is put together. -/
def menuLength (registry : Registry) : Nat :=
  (menuStart registry.banner).utf8ByteSize + menuEnd.utf8ByteSize + linksLength registry.pages

/-- The menu, if it fits. -/
def menu (registry : Registry) (capacity : Nat) : Except ResponseError String :=
  if registry.menuLength ≤ capacity then .ok registry.menuText
  else .error (.menuTooLarge capacity)

end Registry

end Provision
