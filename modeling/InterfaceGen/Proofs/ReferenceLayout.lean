import InterfaceGen.Generator
import InterfaceGen.Proofs.ProjectedMembers

/-!
The text of a generated source, written down as one expression. The writer puts a blank line after
each member and leaves it to the closing brace to drop the last of them and to close an empty body
on its header's line; to see what to do, it looks at the end of the text. The reference layout
needs no such look back: it puts the blank lines between the members only. That the two agree rests
on how the parts of a source end. A declaration ends with a semicolon or a brace, and so does a
closed block, so that nothing but the blank line after the last member is ever dropped and nothing
but an empty body is ever closed at once.
-/

namespace InterfaceGen

namespace Layout

def lineAt (indent : String) (depth : Nat) (text : String) : String :=
  Text.repeated indent depth ++ text ++ "\n"

def linesAt (indent : String) (depth : Nat) (lines : List String) : String :=
  Text.joined (lines.map (lineAt indent depth))

def docLines (docs : Option DocComment) : List String :=
  docs.elim [] DocComment.rendered

/-- A member with its documentation and its attributes, all at one depth. -/
def memberText (indent : String) (depth : Nat) (member : InterfaceMember) : String :=
  linesAt indent depth
    (docLines member.docs ++ member.sections.map AttributeSection.render ++ [member.declaration])

/-- The interface at a depth. Its members are separated by blank lines. -/
def interfaceText (layout : Layout) (indent : String) (depth : Nat) : String :=
  linesAt indent depth (docLines layout.docs) ++
    match layout.members with
    | [] => lineAt indent depth (layout.header ++ " \x7b\x7d")
    | members =>
        lineAt indent depth (layout.header ++ " \x7b") ++
          Text.separated "\n" (members.map (memberText indent (depth + 1))) ++
          lineAt indent depth "\x7d"

/-- The types around, each one level deeper than the one before, with `inner` inside them. -/
def nestedText (indent : String) (inner : Nat → String) (depth : Nat) : List String → String
  | [] => inner depth
  | header :: rest =>
      lineAt indent depth (header ++ " \x7b") ++ nestedText indent inner (depth + 1) rest ++
        lineAt indent depth "\x7d"

/-- The whole text of a source. -/
def reference (layout : Layout) (indent : String) : String :=
  layout.preamble ++
    (if layout.preamble = "" ∨ layout.preamble.toList.getLast? = some '\n' then "" else "\n") ++
    "\n\n" ++
    linesAt indent 0 (layout.usings.flatten.map Using.render) ++
    (if layout.usings.flatten = [] then "" else "\n") ++
    (if layout.namespaceName = "" then ""
      else lineAt indent 0 ("namespace " ++ layout.namespaceName ++ ";") ++ "\n") ++
    nestedText indent (layout.interfaceText indent) 0 layout.containers

end Layout

namespace Draft

/-- The draft at this depth that holds this text. -/
def holding (indent : String) (depth : Nat) (text : String) : Draft :=
  ⟨indent, depth, Buffer.empty.push text⟩

variable (indent : String) (depth : Nat) (text : String)

theorem text_holding : (holding indent depth text).buffer.text = text := by
  simp [holding]

theorem holding_text (draft : Draft) :
    holding draft.indent draft.depth draft.buffer.text = draft := by
  simp [holding, Buffer.push, Buffer.empty, Buffer.text]

theorem raw_holding (more : String) :
    (holding indent depth text).raw more = holding indent depth (text ++ more) := by
  simp [holding, raw, Buffer.push, Buffer.empty]

theorem blank_holding :
    (holding indent depth text).blank = holding indent depth (text ++ "\n") :=
  raw_holding indent depth text "\n"

theorem line_holding (line : String) :
    (holding indent depth text).line line =
      holding indent depth (text ++ Layout.lineAt indent depth line) :=
  raw_holding indent depth text _

theorem foldl_line_holding (lines : List String) :
    lines.foldl line (holding indent depth text) =
      holding indent depth (text ++ Layout.linesAt indent depth lines) := by
  induction lines generalizing text with
  | nil => simp [Layout.linesAt, Text.joined]
  | cons first rest ih =>
      rw [List.foldl_cons, line_holding, ih]
      simp [Layout.linesAt, Text.joined, String.append_assoc]

theorem docs_holding (comment : DocComment) :
    (holding indent depth text).docs comment =
      holding indent depth (text ++ Layout.linesAt indent depth comment.rendered) :=
  foldl_line_holding indent depth text comment.rendered

theorem openBlock_holding (header : String) :
    (holding indent depth text).openBlock header =
      holding indent (depth + 1) (text ++ Layout.lineAt indent depth (header ++ " \x7b")) := by
  simp only [openBlock, line_holding]
  rfl

/-- The text ends a declaration or a block: its last character is a semicolon or a brace. -/
def EndsPart (text : String) : Prop :=
  ∃ front, text = front ++ ";" ∨ text = front ++ "\x7d"

theorem EndsPart.append {text : String} (h : EndsPart text) (before : String) :
    EndsPart (before ++ text) := by
  obtain ⟨front, rfl | rfl⟩ := h
  · exact ⟨before ++ front, .inl (String.append_assoc ..).symm⟩
  · exact ⟨before ++ front, .inr (String.append_assoc ..).symm⟩

/-- The text is made of whole lines, the last of which ends a declaration or a block. -/
def EndsLine (text : String) : Prop :=
  ∃ front, EndsPart front ∧ text = front ++ "\n"

theorem EndsLine.append {text : String} (h : EndsLine text) (before : String) :
    EndsLine (before ++ text) := by
  obtain ⟨front, part, rfl⟩ := h
  exact ⟨before ++ front, part.append before, (String.append_assoc ..).symm⟩

theorem EndsPart.lineAt {line : String} (h : EndsPart line) :
    EndsLine (Layout.lineAt indent depth line) :=
  ⟨_, h.append (Text.repeated indent depth), rfl⟩

theorem toList_repeated_newline (count : Nat) :
    (Text.repeated "\n" count).toList = List.replicate count '\n' := by
  induction count with
  | zero => rfl
  | succ count ih => simp [Text.repeated, List.replicate_succ, ih]

theorem dropBlankLines_replicate {c : Char} (h : c ≠ '\n') (rest : List Char) (blanks : Nat) :
    dropBlankLines (List.replicate blanks '\n' ++ '\n' :: c :: rest) = '\n' :: c :: rest := by
  induction blanks with
  | zero => simp [dropBlankLines, h]
  | succ blanks ih =>
      rw [List.replicate_succ, List.cons_append, dropBlankLines, if_pos, ih]
      cases blanks <;> simp [List.replicate_succ]

theorem reversed_blankLines {text : String} {front : List Char} {c : Char}
    (chars : text.toList = front ++ [c, '\n']) (blanks : Nat) :
    (Buffer.empty.push (text ++ Text.repeated "\n" blanks)).reversed =
      List.replicate blanks '\n' ++ '\n' :: c :: front.reverse := by
  simp [Buffer.push, Buffer.empty, toList_repeated_newline, chars]

/-- A block with nothing but blank lines in it is closed on the line of its header. -/
theorem closeBlock_header (header : String) (blanks : Nat) :
    (holding indent (depth + 1) (text ++ Layout.lineAt indent depth (header ++ " \x7b") ++
        Text.repeated "\n" blanks)).closeBlock =
      holding indent depth (text ++ Layout.lineAt indent depth (header ++ " \x7b\x7d")) := by
  have chars : (text ++ Layout.lineAt indent depth (header ++ " \x7b")).toList =
      (text ++ Text.repeated indent depth ++ header ++ " ").toList ++ ['\x7b', '\n'] := by
    simp [Layout.lineAt]
  have notFeed : '\x7b' ≠ '\n' := by decide
  simp only [closeBlock, holding, reversed_blankLines chars, dropBlankLines_replicate notFeed]
  simp [Buffer.push, Buffer.empty, Layout.lineAt]

/-- The text ends with a whole line that is not empty and opens no block. -/
def FillsLine (text : String) : Prop :=
  ∃ front c, c ≠ '\n' ∧ c ≠ '\x7b' ∧ text.toList = front ++ [c, '\n']

theorem FillsLine.append {text : String} (h : FillsLine text) (before : String) :
    FillsLine (before ++ text) := by
  obtain ⟨front, c, notFeed, notBrace, chars⟩ := h
  exact ⟨before.toList ++ front, c, notFeed, notBrace, by simp [chars]⟩

theorem EndsLine.fillsLine {text : String} (h : EndsLine text) : FillsLine text := by
  obtain ⟨_, ⟨front, rfl | rfl⟩, rfl⟩ := h
  · exact ⟨front.toList, ';', by decide, by decide, by simp⟩
  · exact ⟨front.toList, '\x7d', by decide, by decide, by simp⟩

theorem closeBlock_fillsLine {text : String} (h : FillsLine text) (blanks : Nat) :
    (holding indent (depth + 1) (text ++ Text.repeated "\n" blanks)).closeBlock =
      holding indent depth (text ++ Layout.lineAt indent depth "\x7d") := by
  obtain ⟨front, c, notFeed, notBrace, chars⟩ := h
  have kept : (⟨'\n' :: c :: front.reverse⟩ : Buffer) = Buffer.empty.push text := by
    simp [Buffer.push, Buffer.empty, chars]
  rw [← line_holding, closeBlock]
  simp only [holding, reversed_blankLines chars, dropBlankLines_replicate notFeed]
  split
  · rename_i rest brace
    exact absurd (List.cons.inj (List.cons.inj brace).2).1 notBrace
  · rw [kept]

theorem closeBlocks_succ (draft : Draft) (count : Nat) :
    draft.closeBlocks (count + 1) = (draft.closeBlocks count).closeBlock := by
  induction count generalizing draft with
  | zero => rfl
  | succ count ih =>
      rw [closeBlocks, ih]
      rfl

end Draft

open Draft

theorem Feature.endsPart_render (feature : Feature) : EndsPart feature.render := by
  have block (accessors : Option (List Accessor)) : EndsPart (Accessor.block accessors) := by
    cases accessors with
    | none => exact ⟨"\x7b get; ", .inr rfl⟩
    | some accessors => exact ⟨_, .inr rfl⟩
  cases feature with
  | method decl => exact ⟨_, .inl rfl⟩
  | property decl => exact (block decl.accessors).append _
  | indexer decl => exact (block decl.accessors).append _
  | eventField type names => exact ⟨_, .inl rfl⟩
  | event decl => exact ⟨_, .inl rfl⟩

theorem ImpliedMember.endsPart_render (member : ImpliedMember) : EndsPart member.render := by
  cases member with
  | property parameter isMutable =>
      cases isMutable with
      | true => exact EndsPart.append ⟨"set; ", .inr rfl⟩ _
      | false => exact EndsPart.append ⟨"init; ", .inr rfl⟩ _
  | deconstruct parameters => exact EndsPart.append ⟨")", .inl rfl⟩ _

theorem Projection.endsPart_declaration {p : Projection} {shown : List InterfaceMember}
    (ends : p.members = some shown) {member : InterfaceMember} (listed : member ∈ shown) :
    EndsPart member.declaration := by
  obtain ⟨-, rfl⟩ := (p.members_eq_some_iff shown).mp ends
  obtain declared | implied := List.mem_append.mp (mem_of_mem_distinct listed)
  · obtain ⟨source, -, shown⟩ := List.mem_filterMap.mp declared
    obtain ⟨feature, -, entry⟩ := Option.bind_eq_some_iff.mp shown
    split at entry
    · cases entry
      exact feature.endsPart_render.append _
    · cases entry
  · obtain ⟨source, -, rfl⟩ := List.mem_map.mp implied
    exact source.endsPart_render

namespace Layout

variable (indent : String) (depth : Nat) (text : String)

theorem writeDocs_holding (docs : Option DocComment) :
    writeDocs (holding indent depth text) docs =
      holding indent depth (text ++ linesAt indent depth (docLines docs)) := by
  cases docs with
  | none => simp [writeDocs, docLines, linesAt, Text.joined]
  | some comment => exact docs_holding indent depth text comment

theorem writePreamble_holding (preamble : String) :
    writePreamble (holding indent depth text) preamble =
      holding indent depth (text ++ preamble ++
        (if preamble = "" ∨ preamble.toList.getLast? = some '\n' then "" else "\n") ++ "\n\n") := by
  have feeds : ("\n\n" : String) = "\n" ++ "\n" := rfl
  by_cases ended : preamble = "" ∨ preamble.toList.getLast? = some '\n'
  · rw [writePreamble, if_pos ended, if_neg (fun both => ended.elim both.1 both.2)]
    simp only [raw_holding, blank_holding, feeds, String.append_assoc, String.empty_append]
  · rw [writePreamble, if_neg ended, if_pos (not_or.mp ended)]
    simp only [raw_holding, blank_holding, feeds, String.append_assoc]

theorem writeUsings_holding (usings : List Using) :
    writeUsings (holding indent depth text) usings =
      holding indent depth (text ++ linesAt indent depth (usings.map Using.render) ++
        if usings = [] then "" else "\n") := by
  cases usings with
  | nil => simp [writeUsings, linesAt, Text.joined]
  | cons first rest =>
      rw [if_neg (List.cons_ne_nil first rest), ← blank_holding, ← foldl_line_holding,
        List.foldl_map]
      rfl

theorem writeNamespace_holding (name : String) :
    writeNamespace (holding indent depth text) name =
      holding indent depth (text ++
        if name = "" then "" else lineAt indent depth ("namespace " ++ name ++ ";") ++ "\n") := by
  by_cases empty : name = ""
  · simp [writeNamespace, empty]
  · rw [writeNamespace, if_neg empty, if_neg empty, line_holding, blank_holding,
      String.append_assoc]

theorem writeMember_holding (member : InterfaceMember) :
    writeMember (holding indent depth text) member =
      holding indent depth (text ++ (memberText indent depth member ++ "\n")) := by
  have all := foldl_line_holding indent depth text
    (docLines member.docs ++ member.sections.map AttributeSection.render ++ [member.declaration])
  rw [List.foldl_append, List.foldl_append, foldl_line_holding, List.foldl_map] at all
  rw [← String.append_assoc, ← blank_holding, memberText, ← all, writeMember, writeDocs_holding]
  rfl

theorem foldl_writeMember_holding (members : List InterfaceMember) :
    members.foldl writeMember (holding indent depth text) =
      holding indent depth
        (text ++ Text.joined (members.map (memberText indent depth · ++ "\n"))) := by
  induction members generalizing text with
  | nil => simp [Text.joined]
  | cons first rest ih =>
      rw [List.foldl_cons, writeMember_holding, ih]
      simp [Text.joined, String.append_assoc]

/-- Ending each item with the separator is separating the items and ending the last. -/
theorem joined_ended (separator : String) {α : Type} (write : α → String) (first : α)
    (rest : List α) :
    Text.joined ((first :: rest).map (write · ++ separator)) =
      Text.separated separator ((first :: rest).map write) ++ separator := by
  induction rest generalizing first with
  | nil => simp [Text.joined, Text.separated]
  | cons next rest ih =>
      have later := ih next
      simp only [List.map_cons] at later ⊢
      rw [Text.joined, later, Text.separated]
      simp only [String.append_assoc]

theorem linesAt_concat (lines : List String) (last : String) :
    linesAt indent depth (lines ++ [last]) =
      linesAt indent depth lines ++ lineAt indent depth last := by
  simp [linesAt, Text.joined_append, Text.joined]

theorem endsLine_memberText {member : InterfaceMember} (h : EndsPart member.declaration) :
    EndsLine (memberText indent depth member) := by
  rw [memberText, linesAt_concat]
  exact (h.lineAt indent depth).append _

theorem endsLine_separated {separator : String} {items : List String} (nonempty : items ≠ [])
    (h : ∀ item ∈ items, EndsLine item) : EndsLine (Text.separated separator items) := by
  induction items with
  | nil => exact absurd rfl nonempty
  | cons first rest ih =>
      obtain ⟨ends, later⟩ := List.forall_mem_cons.mp h
      cases rest with
      | nil => exact ends
      | cons next rest => exact (ih (by simp) later).append _

variable {indent depth text} {layout : Layout}

/-- Every declaration of the layout ends with a semicolon or a brace. -/
def EndsDeclarations (layout : Layout) : Prop :=
  ∀ member ∈ layout.members, EndsPart member.declaration

theorem closeBlock_members (ends : layout.EndsDeclarations) :
    (layout.members.foldl writeMember
        ((writeDocs (holding indent depth text) layout.docs).openBlock layout.header)).closeBlock =
      holding indent depth (text ++ layout.interfaceText indent depth) := by
  rw [writeDocs_holding, openBlock_holding, foldl_writeMember_holding, interfaceText]
  cases members : layout.members with
  | nil =>
      have closed := closeBlock_header indent depth
        (text ++ linesAt indent depth (docLines layout.docs)) layout.header 0
      simpa only [List.map_nil, Text.joined, Text.repeated, String.append_assoc] using closed
  | cons first rest =>
      have lines : EndsLine (Text.separated "\n"
          ((first :: rest).map (memberText indent (depth + 1)))) := by
        apply endsLine_separated (by simp)
        intro item listed
        obtain ⟨member, written, rfl⟩ := List.mem_map.mp listed
        exact endsLine_memberText indent (depth + 1) (ends member (members ▸ written))
      have closed := closeBlock_fillsLine indent depth (lines.fillsLine.append
        (text ++ linesAt indent depth (docLines layout.docs) ++
          lineAt indent depth (layout.header ++ " \x7b"))) 1
      rw [joined_ended]
      simpa only [Text.repeated, String.append_assoc, String.append_empty] using closed

theorem endsLine_interfaceText (indent : String) (depth : Nat) :
    EndsLine (layout.interfaceText indent depth) := by
  have brace : EndsPart "\x7d" := ⟨"", .inr rfl⟩
  rw [interfaceText]
  cases layout.members with
  | nil => exact (EndsPart.lineAt indent depth ((EndsPart.append ⟨" \x7b", .inr rfl⟩ _))).append _
  | cons first rest => exact ((brace.lineAt indent depth).append _).append _

theorem endsLine_nestedText {inner : Nat → String} (h : ∀ depth, EndsLine (inner depth))
    (indent : String) (depth : Nat) (containers : List String) :
    EndsLine (nestedText indent inner depth containers) := by
  have brace : EndsPart "\x7d" := ⟨"", .inr rfl⟩
  cases containers with
  | nil => exact h depth
  | cons header rest => exact (brace.lineAt indent depth).append _

/-- Opening all containers, writing what is inside and closing them again nests the text. -/
theorem closeBlocks_containers {inner : Nat → String} (write : Draft → Draft)
    (ends : ∀ depth, EndsLine (inner depth))
    (writes : ∀ depth text, write (holding indent depth text) =
      holding indent depth (text ++ inner depth))
    (depth : Nat) (text : String) (containers : List String) :
    (write (containers.foldl openBlock (holding indent depth text))).closeBlocks
        containers.length =
      holding indent depth (text ++ nestedText indent inner depth containers) := by
  induction containers generalizing depth text with
  | nil => exact writes depth text
  | cons header rest ih =>
      rw [List.foldl_cons, openBlock_holding, List.length_cons, closeBlocks_succ, ih]
      have lines := (endsLine_nestedText ends indent (depth + 1) rest).fillsLine.append
        (text ++ lineAt indent depth (header ++ " \x7b"))
      have closed := closeBlock_fillsLine indent depth lines 0
      simpa only [Text.repeated, nestedText, String.append_assoc, String.append_empty] using closed

theorem write_holding (ends : layout.EndsDeclarations) :
    layout.write (holding indent 0 "") = holding indent 0 (layout.reference indent) := by
  rw [write, writePreamble_holding, writeUsings_holding, writeNamespace_holding]
  have nested := closeBlocks_containers
    (fun draft => (layout.members.foldl writeMember
      ((writeDocs draft layout.docs).openBlock layout.header)).closeBlock)
    (fun depth => endsLine_interfaceText indent depth)
    (fun depth text => closeBlock_members ends)
  rw [nested]
  simp only [reference, String.empty_append, String.append_assoc]

end Layout

theorem Request.text_finish_layout {request : Request} {options : Options} {decl : TypeDecl}
    {members : List InterfaceMember}
    (projected : (request.projection options.policy decl).members = some members)
    (location : Location) :
    (((request.layout options decl location members).write
        (.start .empty options.indent)).finish).text =
      (request.layout options decl location members).reference options.indent := by
  have ends : (request.layout options decl location members).EndsDeclarations := fun _ =>
    Projection.endsPart_declaration projected
  have start : Draft.start .empty options.indent = holding options.indent 0 "" := rfl
  rw [start, Layout.write_holding ends]
  simp [finish, holding, closeBlocks]

theorem Request.of_subject? {request : Request} {decl : TypeDecl} {location : Location}
    (h : request.subject? = some (decl, location)) :
    request.site.type? = some decl ∧ location.namespacePath = request.site.namespacePath := by
  unfold subject? at h
  split at h
  · rename_i found place typed located
    split at h
    · cases h
    · cases h
      obtain ⟨_, _, rfl⟩ := Option.map_eq_some_iff.mp located
      exact ⟨typed, rfl⟩
  · cases h

/-- Whatever is asked for, the text of a generated source is the reference layout of its parts: the
preamble, the using directives of each scope around, innermost first, the namespace, the containers
and the interface with the projected members. -/
theorem Generator.generate_text_eq_reference (generator next : Generator) (request : Request)
    (source : Source) (h : generator.generate request = some (.generated source, next)) :
    ∃ decl members, request.site.type? = some decl ∧
      (request.projection generator.options.policy decl).members = some members ∧
      let settings := Settings.ofMarker request.marker
      let projection := request.projection generator.options.policy decl
      source.text = Layout.reference
        { preamble := generator.options.preamble
          usings := request.site.usingScopes
          namespaceName := settings.namespaceFor request.site.namespacePath
          containers := settings.containers
          docs := decl.docs
          header :=
            Layout.interfaceHeader settings.modifiers (settings.targetName decl.name)
              decl.typeParameterNames (projection.bases.map ResolvedType.render)
          members }
        generator.options.indent := by
  obtain ⟨-, cut, -⟩ | ⟨-, skipped, -⟩ | ⟨decl, location, members, subject, projected, done, -⟩ :=
    generate_cases h
  · cases cut
  · cases skipped
  · obtain ⟨typed, path⟩ := Request.of_subject? subject
    refine ⟨decl, members, typed, projected, ?_⟩
    split at done
    · cases done
    · cases done
      rw [← path]
      exact Request.text_finish_layout projected location

/-- A request for the interface of a documented class `Shape` with two members, nested in two
types. -/
def shapeRequest : Request :=
  let area : Member :=
    ⟨some ⟨[" The area."]⟩, [], ["public"],
      .feature (.method ⟨.simple "double", none, "Area", [], [], []⟩)⟩
  let name : Member :=
    ⟨none, [⟨none, [.ofText "Obsolete" none]⟩], ["public"],
      .feature (.property ⟨.simple "string", none, "Name", none⟩)⟩
  let marker : Attribute :=
    .ofText "AutoInterface" (some [⟨some "Nested", .collection
      [.literal (.text "partial class Outer"), .literal (.text "partial class Inner")]⟩])
  let shape : TypeDecl :=
    ⟨some ⟨[" A shape."]⟩, [⟨none, [marker]⟩], [], .classType, "Shape", [], none, [], [],
      [area, name]⟩
  let space : Namespace := ⟨"Geometry", [⟨false, false, none, "System.Linq"⟩], false⟩
  let file : SourceFile :=
    ⟨"Shapes.cs", [⟨false, false, none, "System"⟩], [.inNamespace space [.ofType shape []]]⟩
  { file
    site := ⟨⟨2, .type shape⟩, [⟨1, .space space⟩, ⟨0, .file file.usings⟩]⟩
    marker
    resolver := (TypeTable.ofFiles [file]).resolver
    stop := .never }

theorem Generator.generate_text_shapeRequest :
    ∃ source next, (Generator.ofOptions ⟨"  ", .inheritanceAware, "// generated", 1⟩).generate
        shapeRequest = some (.generated source, next) ∧
      source.text =
        "// generated\n\n\nusing System.Linq;\nusing System;\n\nnamespace Geometry;\n\n" ++
        "partial class Outer \x7b\n  partial class Inner \x7b\n    /// A shape.\n" ++
        "    public partial interface IShape \x7b\n      /// The area.\n      double Area();\n\n" ++
        "      [Obsolete]\n      string Name \x7b get; \x7d\n    \x7d\n  \x7d\n\x7d\n" := by
  refine ⟨_, _, rfl, ?_⟩
  obtain ⟨decl, members, typed, projected, text⟩ := Generator.generate_text_eq_reference
    (Generator.ofOptions ⟨"  ", .inheritanceAware, "// generated", 1⟩) _ shapeRequest _ rfl
  cases typed
  cases projected
  rw [text]
  decide +kernel

end InterfaceGen
