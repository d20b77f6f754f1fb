import InterfaceGen.Resolver

/-!
Type tables: the types known to a compilation and the interfaces declared in it. Types are found by
their key, which is a dotted path with an arity mark.
-/

namespace InterfaceGen

structure DeclaredInterface where
  decl : TypeDecl
  scope : Scope

structure TypeTable where
  known : List String
  /-- The declared interfaces by key, the latest declaration first. -/
  interfaces : List (String × DeclaredInterface)

namespace TypeTable

/-- The table that knows only the types with a keyword. -/
def initial : TypeTable :=
  ⟨keywordTypes.map fun entry => "System." ++ entry.2, []⟩

/-- Makes a type known by its dotted name and its arity. -/
def addType (table : TypeTable) (name : String) (arity : Nat) : TypeTable :=
  { table with known := lookupKey [name] arity :: table.known }

def contains (table : TypeTable) (name : String) (arity : Nat) : Bool :=
  table.known.contains (lookupKey [name] arity)

def knows (table : TypeTable) (path : List String) (arity : Nat) : Bool :=
  table.known.contains (lookupKey path arity)

def declaredPath (site : Site) (decl : TypeDecl) : List String :=
  site.namespacePath ++ site.containers.map TypeDecl.name ++ [decl.name]

/-- Makes a declared type known. Of two interfaces with one key the later replaces the earlier. -/
def addDeclaration (table : TypeTable) (site : Site) (decl : TypeDecl) : TypeTable :=
  let key := lookupKey (declaredPath site decl) decl.arity
  { known := key :: table.known
    interfaces :=
      if decl.kind = .interface then (key, ⟨decl, .ofSite site⟩) :: table.interfaces
      else table.interfaces }

def addFile (table : TypeTable) (file : SourceFile) : TypeTable :=
  file.typeSites.foldl (fun table entry => table.addDeclaration entry.1 entry.2) table

def ofFiles (files : List SourceFile) : TypeTable :=
  files.foldl addFile initial

end TypeTable
end InterfaceGen
