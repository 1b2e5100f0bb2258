/-
  Provision.Text.Html

  Text made safe for element content and quoted attributes: the five characters
  that HTML gives a meaning to are written as entities.
-/

namespace Provision.Html

/-- The written form of one character. -/
def escapeChar (c : Char) : List Char :=
  if c = '&' then ['&', 'a', 'm', 'p', ';']
  else if c = '<' then ['&', 'l', 't', ';']
  else if c = '>' then ['&', 'g', 't', ';']
  else if c = '\x22' then ['&', 'q', 'u', 'o', 't', ';']
  else if c = '\x27' then ['&', '#', '3', '9', ';']
  else [c]

/-- Text with its markup characters written as entities. -/
def escape (text : String) : String := String.ofList (text.toList.flatMap escapeChar)

end Provision.Html
