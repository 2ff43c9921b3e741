import ApiDocs.Comment
import ApiDocs.Json.Record

/-!
# Documentation in JSON

A fragment names its sort in the member `type`, and a tag in the member `tag`.
-/

namespace ApiDocs

namespace Fragment

def toJson : Fragment → Json
  | .text content => .object [("type", .string "text"), ("text", .string content)]
  | .code content => .object [("type", .string "code"), ("code", .string content)]
  | .link target label =>
      .object
        [("type", .string "link"), ("target", .string target), ("label", .ofOption .string label)]

def ofJson? (json : Json) : Option Fragment := do
  match ← json.tagged? "type" ["text", "code", "link"] with
  | ("text", content) =>
      match ← content.record? ["text"] with
      | [words] => return .text (← words.string?)
      | _ => none
  | ("code", content) =>
      match ← content.record? ["code"] with
      | [words] => return .code (← words.string?)
      | _ => none
  | ("link", content) =>
      match ← content.record? ["target", "label"] with
      | [target, label] => return .link (← target.string?) (← label.optional? Json.string?)
      | _ => none
  | _ => none

end Fragment

namespace DocText

def toJson (text : DocText) : Json :=
  .object [("fragments", .ofList Fragment.toJson text.fragments)]

def ofJson? (json : Json) : Option DocText := do
  match ← json.record? ["fragments"] with
  | [fragments] => return ⟨← fragments.list? Fragment.ofJson?⟩
  | _ => none

end DocText

namespace Tag

def plainJson (word : String) (root : DocText) : Json :=
  .object [("tag", .string word), ("root", root.toJson)]

def namedJson (word name : String) (root : DocText) : Json :=
  .object [("tag", .string word), ("name", .string name), ("root", root.toJson)]

def toJson : Tag → Json
  | description root => plainJson "description" root
  | param name root => namedJson "param" name root
  | returns root => plainJson "return" root
  | throws name root => namedJson "throws" name root
  | see name root => namedJson "see" name root
  | author root => plainJson "author" root
  | since root => plainJson "since" root
  | deprecated root => plainJson "deprecated" root
  | custom name root => namedJson "custom_tag" name root

def words : List String :=
  ["description", "param", "return", "throws", "see", "author", "since", "deprecated", "custom_tag"]

/-- Read the only field of a tag without a name. -/
def root? (content : Json) : Option DocText := do
  match ← content.record? ["root"] with
  | [root] => DocText.ofJson? root
  | _ => none

/-- Read the fields of a tag with a name. -/
def named? (content : Json) : Option (String × DocText) := do
  match ← content.record? ["name", "root"] with
  | [name, root] => return (← name.string?, ← DocText.ofJson? root)
  | _ => none

def ofJson? (json : Json) : Option Tag := do
  let (word, content) ← json.tagged? "tag" words
  match word with
  | "description" => (root? content).map description
  | "param" => (named? content).map fun (name, root) => param name root
  | "return" => (root? content).map returns
  | "throws" => (named? content).map fun (name, root) => throws name root
  | "see" => (named? content).map fun (name, root) => see name root
  | "author" => (root? content).map author
  | "since" => (root? content).map since
  | "deprecated" => (root? content).map deprecated
  | "custom_tag" => (named? content).map fun (name, root) => custom name root
  | _ => none

end Tag

namespace Documentation

def toJson (documentation : Documentation) : Json :=
  .object [("children", .ofList Tag.toJson documentation.tags)]

def ofJson? (json : Json) : Option Documentation := do
  match ← json.record? ["children"] with
  | [tags] => return ⟨← tags.list? Tag.ofJson?⟩
  | _ => none

end Documentation

end ApiDocs
