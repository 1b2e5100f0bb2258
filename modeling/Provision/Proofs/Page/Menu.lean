/-
  Provision.Proofs.Page.Menu

  The menu and the room it is given. Its length is counted without putting it together, and the
  count is exact (`Registry.menuLength_eq`), so a menu is refused only where its whole text does
  not fit, and is never cut. The text does not depend on the room, and grows with every page
  (`Registry.menu_exact`).
-/
import Provision.Proofs.Page.Lookup

namespace Provision.Registry

open Http

variable {registry : Registry} {page : Page}

/-- What a link to a page is written as. -/
def linkParts (page : Page) : List String :=
  ["&nbsp;<a href=\"", page.path, "\">", page.title, "</a>"]

/-- The whole menu in parts: the block with the banner and the opening of the next, one link for
    each page in the order of the pages, and the closing of that block. -/
def menuParts (registry : Registry) : List String :=
  ["<div>\n<h1 style=\"text-align:center;background-color:#3EE427;\">", registry.banner,
    "</h1>\n</div>\n<div>\n<h3 style=\"background-color:#1E90FF;\">"] ++
  registry.pages.flatMap linkParts ++ ["</h3>\n</div>\n"]

/-! ## The text and its length -/

theorem menuItem_eq_join (page : Page) : menuItem page = String.join (linkParts page) := by
  -- said of any five texts, so that none of the fixed ones is opened
  have hjoin : ∀ start path middle title stop : String,
      start ++ path ++ middle ++ title ++ stop = String.join [start, path, middle, title, stop] := by
    intro start path middle title stop
    simp [String.join_cons, String.append_assoc]
  exact hjoin linkStart page.path linkMiddle page.title linkEnd

theorem menuItems_eq_join (pages : List Page) :
    menuItems pages = String.join (pages.flatMap linkParts) := by
  induction pages with
  | nil => rfl
  | cons page pages ih =>
    rw [List.flatMap_cons, String.join_append, ← ih, ← menuItem_eq_join]
    rfl

theorem menuText_eq_join (registry : Registry) :
    registry.menuText = String.join registry.menuParts := by
  have hjoin : ∀ start banner middle links stop : String,
      start ++ banner ++ middle ++ links ++ stop =
        String.join [start, banner, middle] ++ links ++ String.join [stop] := by
    intro start banner middle links stop
    simp [String.join_cons, String.append_assoc]
  rw [menuParts, String.join_append, String.join_append, ← menuItems_eq_join]
  exact hjoin _ registry.banner _ (menuItems registry.pages) menuEnd

theorem utf8ByteSize_menuItem (page : Page) :
    (menuItem page).utf8ByteSize =
      linkOverhead + page.path.utf8ByteSize + page.title.utf8ByteSize := by
  simp only [menuItem, linkOverhead, String.utf8ByteSize_append]
  omega

@[simp] theorem linksLength_cons (page : Page) (pages : List Page) :
    linksLength (page :: pages) = linkOverhead + page.path.utf8ByteSize +
      page.title.utf8ByteSize + linksLength pages := rfl

theorem linksLength_le_concat (pages : List Page) (page : Page) :
    linksLength pages ≤ linksLength (pages ++ [page]) := by
  induction pages with
  | nil => exact Nat.zero_le _
  | cons first pages ih =>
    rw [List.cons_append, linksLength_cons, linksLength_cons]
    omega

theorem utf8ByteSize_menuItems (pages : List Page) :
    (menuItems pages).utf8ByteSize = linksLength pages := by
  induction pages with
  | nil => rfl
  | cons page pages ih =>
    rw [linksLength_cons, ← ih, ← utf8ByteSize_menuItem, ← String.utf8ByteSize_append]
    rfl

/-- What is counted is what is put together. -/
theorem menuLength_eq (registry : Registry) :
    registry.menuLength = registry.menuText.utf8ByteSize := by
  rw [menuLength, menuText, String.utf8ByteSize_append, String.utf8ByteSize_append,
    utf8ByteSize_menuItems]
  omega

theorem menu_eq (registry : Registry) (capacity : Nat) :
    registry.menu capacity =
      if registry.menuText.utf8ByteSize ≤ capacity then .ok registry.menuText
      else .error (.menuTooLarge capacity) := by
  rw [menu, menuLength_eq]

theorem menu_eq_ok_iff {capacity : Nat} {text : String} :
    registry.menu capacity = .ok text ↔
      registry.menuText.utf8ByteSize ≤ capacity ∧ text = registry.menuText := by
  rw [menu_eq]
  by_cases h : registry.menuText.utf8ByteSize ≤ capacity
  · simp [h, eq_comm]
  · simp [h]

theorem menu_eq_error_iff {capacity : Nat} {error : ResponseError} :
    registry.menu capacity = .error error ↔
      capacity < registry.menuText.utf8ByteSize ∧ error = .menuTooLarge capacity := by
  rw [menu_eq]
  by_cases h : registry.menuText.utf8ByteSize ≤ capacity
  · simp [h, Nat.not_lt_of_le h]
  · simp [h, Nat.lt_of_not_le h, eq_comm]

/-! ## The pages that are linked -/

/-- The pages of a registry are some of those that were offered, in the order of the offers. -/
theorem exists_sublist_pages_registerAll (registry : Registry) (calls : List Page) :
    ∃ taken, taken.Sublist calls ∧
      (registry.registerAll calls).pages = registry.pages ++ taken := by
  induction calls generalizing registry with
  | nil => exact ⟨[], List.Sublist.refl [], (List.append_nil _).symm⟩
  | cons page calls ih =>
    obtain ⟨taken, hsublist, hpages⟩ := ih (registry.offer page)
    by_cases hadmits : registry.Admits page
    · refine ⟨page :: taken, hsublist.cons_cons page, hpages.trans ?_⟩
      rw [offer_of_admits hadmits, List.append_assoc, List.singleton_append]
    · refine ⟨taken, hsublist.cons page, hpages.trans ?_⟩
      rw [offer_of_not_admits hadmits]

/-- A menu does not get shorter by a page that is offered. -/
theorem menuLength_le_offer (registry : Registry) (page : Page) :
    registry.menuLength ≤ (registry.offer page).menuLength := by
  by_cases hadmits : registry.Admits page
  · rw [offer_of_admits hadmits]
    exact Nat.add_le_add_left (linksLength_le_concat registry.pages page) _
  · rw [offer_of_not_admits hadmits]

/-- Whatever pages were offered to a registry, its menu is the whole text with one link for each
    page that was taken, in the order they were taken, and it is refused exactly where that text
    has more bytes than there is room for. So it is the same text wherever it fits, and where it
    does not fit, it does not with one more page. -/
theorem menu_exact (banner : String) (maxPages : Nat) (calls : List Page) :
    let registry := (empty banner maxPages).registerAll calls
    let whole := String.join registry.menuParts
    registry.banner = banner ∧ registry.pages.Sublist calls ∧ registry.paths.Nodup ∧
    (∀ capacity text, registry.menu capacity = .ok text ↔
      whole.utf8ByteSize ≤ capacity ∧ text = whole) ∧
    (∀ capacity error, registry.menu capacity = .error error ↔
      capacity < whole.utf8ByteSize ∧ error = .menuTooLarge capacity) ∧
    (∀ capacity capacity' text text', registry.menu capacity = .ok text →
      registry.menu capacity' = .ok text' → text = text') ∧
    ∀ page capacity error, registry.menu capacity = .error error →
      (registry.offer page).menu capacity = .error error := by
  intro registry whole
  have hwhole : whole = registry.menuText := (menuText_eq_join registry).symm
  have hvalid : registry.Valid := valid_registerAll banner maxPages calls
  obtain ⟨pages, hbanner⟩ := exists_pages_registerAll (empty banner maxPages) calls
  obtain ⟨taken, hsublist, hpages⟩ :=
    exists_sublist_pages_registerAll (empty banner maxPages) calls
  -- the empty registry has no pages before those that were taken
  have htaken : registry.pages = taken := hpages.trans (List.nil_append taken)
  refine ⟨congrArg Registry.banner hbanner, htaken ▸ hsublist, List.pairwise_map.mpr hvalid.paths,
    fun capacity text => ?_, fun capacity error => ?_, ?_, ?_⟩
  · rw [hwhole, menu_eq_ok_iff]
  · rw [hwhole, menu_eq_error_iff]
  · intro capacity capacity' text text' h h'
    rw [(menu_eq_ok_iff.mp h).2, (menu_eq_ok_iff.mp h').2]
  · intro page capacity error h
    obtain ⟨hlarge, rfl⟩ := menu_eq_error_iff.mp h
    have hgrows := menuLength_le_offer registry page
    rw [menuLength_eq, menuLength_eq] at hgrows
    exact menu_eq_error_iff.mpr ⟨Nat.lt_of_lt_of_le hlarge hgrows, rfl⟩

/-- A menu of 165 bytes in less room than that, with a second page as well, and in enough. -/
theorem menu_exact_edge :
    let outer : Page := ⟨"/a", "Outer", .none, (· == .get), Handler.sendPage "out", .done (.ok ())⟩
    let inner : Page := ⟨"/a/b", "Inner", .none, (· == .get), Handler.sendPage "in", .done (.ok ())⟩
    let registry := (empty "Setup" 2).registerAll [outer]
    registry.menu 164 = .error (.menuTooLarge 164) ∧
      (registry.offer inner).menu 164 = .error (.menuTooLarge 164) ∧
      ∃ text, registry.menu 165 = .ok text ∧ registry.menu 300 = .ok text := by
  intro outer inner registry
  have hsize : (String.join registry.menuParts).utf8ByteSize = 165 := by decide +kernel
  obtain ⟨-, -, -, hfits, hlarge, hsame, hgrows⟩ := menu_exact "Setup" 2 [outer]
  have h164 : registry.menu 164 = .error (.menuTooLarge 164) :=
    (hlarge 164 _).mpr ⟨hsize ▸ by decide, rfl⟩
  have h165 : registry.menu 165 = .ok (String.join registry.menuParts) :=
    (hfits 165 _).mpr ⟨Nat.le_of_eq hsize, rfl⟩
  obtain ⟨text, h300⟩ : ∃ text, registry.menu 300 = .ok text :=
    ⟨_, (hfits 300 _).mpr ⟨hsize ▸ by decide, rfl⟩⟩
  exact ⟨h164, hgrows inner 164 _ h164, text, hsame 165 300 _ _ h165 h300 ▸ h165, h300⟩

end Provision.Registry
