/-
  Provision.Proofs.Portal.Markup

  What the names of networks and devices can do to the pages that show them. The markup of a page
  is that of its template: the names of networks add none to the form (`markup_renderForm`) and
  nothing shown on the home page adds any to it (`markup_render`). And each page tells the names
  it shows (`renderForm_injective`, `render_injective`).
-/
import Mathlib.Logic.Function.Basic
import Provision.Portal.Home
import Provision.Portal.WifiSetup
import Provision.Proofs.Text.Html

namespace Provision

open Html

/-! ## The form -/

namespace WifiSetup

/-- One network has the same markup whatever it is called. -/
theorem markup_option (ssid : String) : markup (option ssid) = markup (option "") := by
  have hframe : ∀ before between after text : String,
      markup (before ++ escape text ++ between ++ escape text ++ after) =
        markup before ++ markup between ++ markup after := by
    intro before between after text
    simp
  exact (hframe _ _ _ ssid).trans (hframe _ _ _ "").symm

/-- The form has the markup of a form for as many networks without a name. -/
theorem markup_renderForm (ssids : List String) :
    markup (renderForm ssids) = markup (renderForm (List.replicate ssids.length "")) := by
  have hoptions : markup (options ssids) = markup (options (List.replicate ssids.length "")) := by
    induction ssids with
    | nil => rfl
    | cons ssid ssids ih =>
      rw [List.length_cons, List.replicate_succ]
      simp only [options, List.foldr_cons, markup_append] at ih ⊢
      rw [ih, markup_option]
  simp only [renderForm, markup_append, hoptions]

theorem option_append (ssid rest : String) :
    option ssid ++ rest = "<option value=\"" ++ (escape ssid ++ (String.singleton '\x22' ++
      (">" ++ (escape ssid ++ (String.singleton '<' ++ ("/option>" ++ rest)))))) := by
  have hquote : ("\">" : String) = String.singleton '\x22' ++ ">" := by decide
  have hclose : ("</option>" : String) = String.singleton '<' ++ "/option>" := by decide
  have hassoc : ∀ opening gt close text : String,
      opening ++ text ++ (String.singleton '\x22' ++ gt) ++ text ++
          (String.singleton '<' ++ close) ++ rest =
        opening ++ (text ++ (String.singleton '\x22' ++
          (gt ++ (text ++ (String.singleton '<' ++ (close ++ rest)))))) := by
    intro opening gt close text
    simp only [String.append_assoc]
  have hoption := hassoc "<option value=\"" ">" "/option>" (escape ssid)
  rw [← hquote, ← hclose] at hoption
  exact hoption

/-- One network is told from those behind it. -/
theorem option_append_inj {ssid other rest rest' : String}
    (h : option ssid ++ rest = option other ++ rest') : ssid = other ∧ rest = rest' := by
  rw [option_append, option_append, String.append_right_inj] at h
  -- the value ends at the quote, and behind it the same name stands once more
  obtain ⟨rfl, hbehind⟩ := escape_append_inj rfl h
  rw [String.append_right_inj, String.append_right_inj, String.append_right_inj,
    String.append_right_inj] at hbehind
  exact ⟨rfl, hbehind⟩

theorem option_append_ne_empty (ssid rest : String) : option ssid ++ rest ≠ "" := by
  rw [option_append]
  intro h
  have hlists := congrArg String.toList h
  rw [String.toList_append] at hlists
  exact absurd (List.append_eq_nil_iff.mp hlists).1 (by decide)

theorem options_inj {ssids others : List String} (h : options ssids = options others) :
    ssids = others := by
  induction ssids generalizing others with
  | nil =>
    cases others with
    | nil => rfl
    | cons other others => exact absurd h.symm (option_append_ne_empty other (options others))
  | cons ssid ssids ih =>
    cases others with
    | nil => exact absurd h (option_append_ne_empty ssid (options ssids))
    | cons other others =>
      obtain ⟨rfl, hbehind⟩ := option_append_inj h
      rw [ih hbehind]

/-- The form shows which networks it was made for, and in which order. -/
theorem renderForm_injective : Function.Injective renderForm := by
  intro ssids others h
  rw [renderForm, renderForm, String.append_left_inj, String.append_right_inj] at h
  exact options_inj h

end WifiSetup

/-! ## The home page -/

namespace Home

theorem markup_networkText (ssid : Option String) : markup (networkText ssid) = [] := by
  cases ssid with
  | none => decide
  | some ssid => exact markup_escape ssid

/-- The home page has the same markup whatever it shows. -/
theorem markup_render (hostname : String) (ssid : Option String) :
    markup (render hostname ssid) = markup (render "" none) := by
  have hframe : ∀ before between after hostname network : String, markup network = [] →
      markup (before ++ escape hostname ++ between ++ network ++ after) =
        markup before ++ markup between ++ markup after := by
    intro before between after hostname network hnetwork
    simp [hnetwork]
  exact (hframe _ _ _ hostname _ (markup_networkText ssid)).trans
    (hframe _ _ _ "" _ (markup_networkText none)).symm

theorem render_some (hostname ssid : String) :
    render hostname (some ssid) = "<p>Device: " ++ (escape hostname ++ (String.singleton '<' ++
      ("/p><p>WiFi network: " ++ (escape ssid ++ "</p></body></html>")))) := by
  have hclose : ("</p><p>WiFi network: " : String) =
      String.singleton '<' ++ "/p><p>WiFi network: " := by decide
  have hassoc : ∀ before between after name network : String,
      before ++ name ++ (String.singleton '<' ++ between) ++ network ++ after =
        before ++ (name ++ (String.singleton '<' ++ (between ++ (network ++ after)))) := by
    intro before between after name network
    simp only [String.append_assoc]
  have hrender := hassoc "<p>Device: " "/p><p>WiFi network: " "</p></body></html>"
    (escape hostname) (escape ssid)
  rw [← hclose] at hrender
  exact hrender

/-- The home page of a device that is set up shows its name and its network. -/
theorem render_injective :
    Function.Injective fun shown : String × String => render shown.1 (some shown.2) := by
  rintro ⟨hostname, ssid⟩ ⟨hostname', ssid'⟩ h
  replace h : render hostname (some ssid) = render hostname' (some ssid') := h
  rw [render_some, render_some, String.append_right_inj] at h
  obtain ⟨rfl, hbehind⟩ := escape_append_inj rfl h
  rw [String.append_right_inj, String.append_left_inj, escape_inj] at hbehind
  rw [hbehind]

end Home

/-! ## Both pages -/

/-- Names can neither add markup to the pages of the portal nor take any away, and are not confused
    with each other: the markup of the form is settled by the number of networks and that of the
    home page by nothing, and each page tells the names it shows. -/
theorem names_add_no_markup :
    (∀ ssids others : List String, ssids.length = others.length →
      markup (WifiSetup.renderForm ssids) = markup (WifiSetup.renderForm others)) ∧
    (∀ hostname hostname' ssid ssid',
      markup (Home.render hostname ssid) = markup (Home.render hostname' ssid')) ∧
    Function.Injective WifiSetup.renderForm ∧
    Function.Injective fun shown : String × String => Home.render shown.1 (some shown.2) := by
  refine ⟨fun ssids others hlength => ?_, fun hostname hostname' ssid ssid' => ?_,
    WifiSetup.renderForm_injective, Home.render_injective⟩
  · rw [WifiSetup.markup_renderForm ssids, WifiSetup.markup_renderForm others, hlength]
  · rw [Home.markup_render hostname ssid, Home.markup_render hostname' ssid']

/-- A network with the name of a form that posts elsewhere, and a plain one. -/
theorem names_add_no_markup_form :
    markup (WifiSetup.renderForm ["\"></select><form action=\"/elsewhere\">", "guest"]) =
      markup (WifiSetup.renderForm ["home", "guest"]) :=
  names_add_no_markup.1 _ _ rfl

end Provision
