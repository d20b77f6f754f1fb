import InterfaceGen.Declaration.Type

/-!
Source files as trees of namespaces and types. A *site* is one node of a file together with its
place: its number in document order and the nodes above it.
-/

namespace InterfaceGen

/-- A namespace or a type with what is declared inside it. Any nesting is allowed. -/
inductive Item where
  | inNamespace (decl : Namespace) (items : List Item)
  | ofType (decl : TypeDecl) (items : List Item)

structure SourceFile where
  path : String
  usings : List Using
  items : List Item

inductive Node where
  | file (usings : List Using)
  | space (decl : Namespace)
  | type (decl : TypeDecl)

namespace Node

def type? : Node → Option TypeDecl
  | .type decl => some decl
  | .file _ | .space _ => none

def namespace? : Node → Option Namespace
  | .space decl => some decl
  | .file _ | .type _ => none

/-- The using directives of a file or namespace; a type has no place for them. -/
def usings? : Node → Option (List Using)
  | .file usings => some usings
  | .space decl => some decl.usings
  | .type _ => none

end Node

structure NumberedNode where
  number : Nat
  node : Node

/-- A node with the nodes above it, nearest first. -/
structure Site extends NumberedNode where
  above : List NumberedNode

mutual

/-- The sites of an item whose first node gets the number `next`, in document order. -/
def Item.sites (above : List NumberedNode) (next : Nat) : Item → List Site
  | .inNamespace decl items =>
      let node : NumberedNode := ⟨next, .space decl⟩
      ⟨node, above⟩ :: Item.sitesOfAll (node :: above) (next + 1) items
  | .ofType decl items =>
      let node : NumberedNode := ⟨next, .type decl⟩
      ⟨node, above⟩ :: Item.sitesOfAll (node :: above) (next + 1) items

def Item.sitesOfAll (above : List NumberedNode) (next : Nat) : List Item → List Site
  | [] => []
  | item :: rest =>
      let own := Item.sites above next item
      own ++ Item.sitesOfAll above (next + own.length) rest

end

namespace SourceFile

/-- All sites in document order. The file itself is number 0. -/
def sites (file : SourceFile) : List Site :=
  let root : NumberedNode := ⟨0, .file file.usings⟩
  ⟨root, []⟩ :: Item.sitesOfAll [root] 1 file.items

def site? (file : SourceFile) (number : Nat) : Option Site :=
  file.sites[number]?

def fileName (file : SourceFile) : String :=
  match (Text.pieces (fun c => c == '/' || c == '\\') file.path.toList).getLast? with
  | some piece => String.ofList piece
  | none => file.path

end SourceFile

namespace Site

def type? (site : Site) : Option TypeDecl :=
  site.node.type?

/-- The segments of the namespaces above, outermost first. -/
def namespacePath (site : Site) : List String :=
  (site.above.reverse.filterMap (·.node.namespace?)).flatMap Namespace.segments

/-- The types above, outermost first. -/
def containers (site : Site) : List TypeDecl :=
  site.above.reverse.filterMap (·.node.type?)

/-- The using directives visible here, one list for each file or namespace above, innermost
first. -/
def usingScopes (site : Site) : List (List Using) :=
  site.above.filterMap (·.node.usings?)

def enclosingType? (site : Site) : Option (Nat × TypeDecl) :=
  site.above.findSome? fun outer => outer.node.type?.map fun decl => (outer.number, decl)

def enclosingNamespace? (site : Site) : Option (Nat × Namespace) :=
  site.above.findSome? fun outer => outer.node.namespace?.map fun decl => (outer.number, decl)

end Site

/-- The type declarations of a file with their sites, in document order. -/
def SourceFile.typeSites (file : SourceFile) : List (Site × TypeDecl) :=
  file.sites.filterMap fun site => site.type?.map fun decl => (site, decl)

theorem SourceFile.type?_of_mem_typeSites {file : SourceFile} {entry : Site × TypeDecl}
    (member : entry ∈ file.typeSites) : entry.1.type? = some entry.2 := by
  obtain ⟨site, _, found⟩ := List.mem_filterMap.mp member
  obtain ⟨decl, typed, rfl⟩ := Option.map_eq_some_iff.mp found
  exact typed

end InterfaceGen
