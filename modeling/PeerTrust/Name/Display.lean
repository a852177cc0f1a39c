import PeerTrust.Name.Basic
import PeerTrust.Text.Wide

/-!
# Names as text

Relative names are joined by `, ` and their attributes by ` + `, each as `type=value`.

## Main definitions

* `Name.valueText?` — the text of a value
* `Name.display` — the text of a name
-/

namespace PeerTrust.Name

/-- The text of an attribute value: strings of one-byte encodings as UTF-8, two-byte strings as
UTF-16, anything else as hexadecimal digits; `none` if a string does not decode. -/
def valueText? (value : Der.Element) : Option String :=
  if value.number ∈ [7, 12, 18, 19, 20, 21, 22, 25, 26, 27] then
    (Text.Utf8.decode? value.content).map String.ofList
  else if value.number = Der.Tag.bmpString then
    (Text.Utf16.decode? (Text.Utf16.unitsWithTail value.content)).map String.ofList
  else some (Bytes.toUpperHex value.content)

/-- The type of an attribute: its short name, or its numbers. -/
def kindText (kind : Oid) : String :=
  kind.shortName?.getD s!"OID({kind.dotted})"

/-- An attribute as `type=value`. -/
def Attribute.display? (a : Attribute) : Option String := do
  return kindText a.kind ++ "=" ++ (← valueText? a.value)

/-- The attributes of a relative name, joined by ` + `. -/
def Relative.display? (r : Relative) : Option String := do
  return " + ".intercalate (← r.mapM Attribute.display?)

/-- The text of a name, or a fixed remark if one of its values does not decode. -/
def display (n : Name) : String :=
  match n.relatives.mapM Relative.display? with
  | some texts => ", ".intercalate texts
  | none => "<X509Error: Invalid X.509 name>"

end PeerTrust.Name
