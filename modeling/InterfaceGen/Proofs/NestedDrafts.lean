import InterfaceGen.Proofs.ReferenceLayout
import Mathlib.Data.List.DropRight

/-!
Drafts of nested blocks. A document is a tree of lines, blank lines, comments and blocks. It is
written step by step, a block by opening it, writing what is in it and closing it again, and it has
a text by recursion on the tree, in which a block leaves out what is blank at its end. The two agree.
Closing a block looks only at the end of all that was written so far, and finds there what belongs
to the block itself: either the last line of one of its parts, which is not empty and opens nothing,
or the brace of its own header. What was written before plays no part, so that the steps of a part
do the same to every draft.
-/

namespace InterfaceGen
namespace Draft

inductive Step where
  | line (text : String)
  | blank
  | docs (comment : DocComment)
  | openBlock (header : String)
  | closeBlock

namespace Step

def apply (draft : Draft) : Step → Draft
  | .line text => draft.line text
  | .blank => draft.blank
  | .docs comment => draft.docs comment
  | .openBlock header => draft.openBlock header
  | .closeBlock => draft.closeBlock

def depthAfter (depth : Nat) : Step → Nat
  | .openBlock _ => depth + 1
  | .closeBlock => depth - 1
  | _ => depth

end Step

def run (draft : Draft) (steps : List Step) : Draft :=
  steps.foldl Step.apply draft

theorem run_cons (draft : Draft) (step : Step) (steps : List Step) :
    draft.run (step :: steps) = (step.apply draft).run steps :=
  rfl

theorem run_append (draft : Draft) (steps more : List Step) :
    draft.run (steps ++ more) = (draft.run steps).run more :=
  List.foldl_append

inductive Part where
  | line (text : String)
  | blank
  | docs (comment : DocComment)
  | block (header : String) (parts : List Part)

/-- The text is made of line feeds only, or of nothing. -/
def isBlankText (text : String) : Bool :=
  text.toList.all (· == '\n')

mutual

def Part.steps : Part → List Step
  | .line text => [.line text]
  | .blank => [.blank]
  | .docs comment => [.docs comment]
  | .block header parts => .openBlock header :: (Part.stepsEach parts ++ [.closeBlock])

def Part.stepsEach : List Part → List Step
  | [] => []
  | part :: rest => part.steps ++ Part.stepsEach rest

end

mutual

/-- The text of a part at a depth. A block drops its last parts as long as they are blank. -/
def Part.render (indent : String) : (depth : Nat) → Part → String
  | depth, .line text => Layout.lineAt indent depth text
  | _, .blank => "\n"
  | depth, .docs comment => Layout.linesAt indent depth comment.rendered
  | depth, .block header parts =>
      match (Part.renderEach indent (depth + 1) parts).rdropWhile isBlankText with
      | [] => Layout.lineAt indent depth (header ++ " \x7b\x7d")
      | first :: rest =>
          Layout.lineAt indent depth (header ++ " \x7b") ++ Text.joined (first :: rest) ++
            Layout.lineAt indent depth "\x7d"

def Part.renderEach (indent : String) : (depth : Nat) → List Part → List String
  | _, [] => []
  | depth, part :: rest => part.render indent depth :: Part.renderEach indent depth rest

end

/-- The text ends neither with a line feed nor with an opening brace. -/
def EndsPlain (text : String) : Prop :=
  text.toList.getLast? ≠ some '\n' ∧ text.toList.getLast? ≠ some '\x7b'

instance (text : String) : Decidable (EndsPlain text) :=
  inferInstanceAs (Decidable (_ ∧ _))

/-- Lines are not empty, and neither they nor the lines of comments end like a blank line or like
the header of a block. There is nothing to ask of headers. -/
inductive Part.Plain : Part → Prop where
  | line {text : String} (nonempty : text ≠ "") (ending : EndsPlain text) : Plain (.line text)
  | blank : Plain .blank
  | docs {comment : DocComment} (endings : ∀ line ∈ comment.rendered, EndsPlain line) :
      Plain (.docs comment)
  | block {header : String} {parts : List Part} (inner : ∀ part ∈ parts, part.Plain) :
      Plain (.block header parts)

/-- The second list of steps is the first one with closing steps added where no block is open. -/
inductive ClosesAdded : (depth : Nat) → List Step → List Step → Prop where
  | nil (depth : Nat) : ClosesAdded depth [] []
  | step {depth : Nat} (step : Step) {steps more : List Step}
      (later : ClosesAdded (step.depthAfter depth) steps more) :
      ClosesAdded depth (step :: steps) (step :: more)
  | close {steps more : List Step} (later : ClosesAdded 0 steps more) :
      ClosesAdded 0 steps (.closeBlock :: more)

theorem ClosesAdded.refl (depth : Nat) (steps : List Step) : ClosesAdded depth steps steps := by
  induction steps generalizing depth with
  | nil => exact .nil depth
  | cons step rest ih => exact .step step (ih _)

@[simp] theorem Part.renderEach_eq_map (indent : String) (depth : Nat) (parts : List Part) :
    Part.renderEach indent depth parts = parts.map (Part.render indent depth) := by
  induction parts with
  | nil => rfl
  | cons part rest ih => rw [Part.renderEach, ih, List.map_cons]

theorem exists_repeated_of_isBlankText {text : String} (h : isBlankText text = true) :
    ∃ count, text = Text.repeated "\n" count := by
  refine ⟨text.toList.length, String.toList_inj.mp ?_⟩
  rw [toList_repeated_newline, List.eq_replicate_iff]
  exact ⟨rfl, by simpa [isBlankText] using h⟩

theorem isBlankText_joined {texts : List String} (h : ∀ text ∈ texts, isBlankText text = true) :
    isBlankText (Text.joined texts) = true := by
  induction texts with
  | nil => rfl
  | cons text rest ih =>
      obtain ⟨here, later⟩ := List.forall_mem_cons.mp h
      have both : isBlankText text = true ∧ isBlankText (Text.joined rest) = true := ⟨here, ih later⟩
      simpa [isBlankText, Text.joined] using both

/-- Joined texts are the joined texts up to the last one that is not blank, and blank lines. -/
theorem exists_joined_eq (texts : List String) :
    ∃ blanks, Text.joined texts =
      Text.joined (texts.rdropWhile isBlankText) ++ Text.repeated "\n" blanks := by
  obtain ⟨blanks, dropped⟩ := exists_repeated_of_isBlankText
    (isBlankText_joined fun text (h : text ∈ texts.rtakeWhile isBlankText) =>
      List.mem_rtakeWhile_imp h)
  refine ⟨blanks, ?_⟩
  rw [← dropped, ← Text.joined_append, List.rdropWhile_append_rtakeWhile]

theorem fillsLine_joined {texts : List String}
    (each : ∀ text ∈ texts, isBlankText text = true ∨ FillsLine text)
    (nonempty : texts.rdropWhile isBlankText ≠ []) :
    FillsLine (Text.joined (texts.rdropWhile isBlankText)) := by
  have notBlank := List.rdropWhile_last_not isBlankText texts nonempty
  have kept : (texts.rdropWhile isBlankText).getLast nonempty ∈ texts :=
    (List.rdropWhile_prefix isBlankText texts).subset (List.getLast_mem nonempty)
  have last := (each _ kept).resolve_left notBlank
  rw [← List.dropLast_append_getLast nonempty, Text.joined_append]
  apply FillsLine.append
  simpa [Text.joined] using last

theorem EndsPlain.fillsLine {text : String} (h : EndsPlain text) (nonempty : text ≠ "")
    (indent : String) (depth : Nat) : FillsLine (Layout.lineAt indent depth text) := by
  obtain empty | ⟨front, c, chars⟩ := List.eq_nil_or_concat text.toList
  · exact absurd (String.toList_eq_nil_iff.mp empty) nonempty
  · have last : text.toList.getLast? = some c := by simp [chars]
    have ending : c ≠ '\n' ∧ c ≠ '\x7b' := by simpa [EndsPlain, last] using h
    exact ⟨(Text.repeated indent depth).toList ++ front, c, ending.1, ending.2,
      by simp [Layout.lineAt, chars]⟩

namespace Part

variable (indent : String)

/-- A part that is not blank ends with a line that closing a block leaves alone. -/
theorem Plain.blank_or_fillsLine {part : Part} (h : part.Plain) (depth : Nat) :
    isBlankText (part.render indent depth) = true ∨ FillsLine (part.render indent depth) := by
  cases h with
  | line nonempty ending =>
      rw [render]
      exact .inr (ending.fillsLine nonempty indent depth)
  | blank => exact .inl (by rw [render]; decide)
  | @docs comment endings =>
      rw [render]
      obtain noLines | ⟨front, last, lines⟩ := List.eq_nil_or_concat comment.rendered
      · exact .inl (by rw [noLines]; rfl)
      · have listed : last ∈ comment.rendered := by simp [lines]
        have nonempty : last ≠ "" := by
          obtain ⟨line, -, rfl⟩ := List.mem_map.mp listed
          simp [DocComment.mark]
        rw [lines, List.concat_eq_append, Layout.linesAt_concat]
        exact .inr (((endings last listed).fillsLine nonempty indent depth).append _)
  | @block header parts inner =>
      rw [render]
      split
      · have ends : EndsPart (header ++ " \x7b\x7d") := EndsPart.append ⟨" \x7b", .inr rfl⟩ header
        exact .inr (ends.lineAt indent depth).fillsLine
      · have ends : EndsPart "\x7d" := ⟨"", .inr rfl⟩
        exact .inr ((ends.lineAt indent depth).fillsLine.append _)

/-- Closing a block after its parts leaves what the block is to be. -/
theorem closeBlock_parts {parts : List Part} (plain : ∀ part ∈ parts, part.Plain) (depth : Nat)
    (text header : String) :
    (holding indent (depth + 1) (text ++ Layout.lineAt indent depth (header ++ " \x7b") ++
        Text.joined (renderEach indent (depth + 1) parts))).closeBlock =
      holding indent depth (text ++ (Part.block header parts).render indent depth) := by
  obtain ⟨blanks, split⟩ := exists_joined_eq (renderEach indent (depth + 1) parts)
  rw [split, render]
  cases kept : (renderEach indent (depth + 1) parts).rdropWhile isBlankText with
  | nil =>
      -- all parts are blank, so that the brace of the header comes to the end
      rw [Text.joined, String.empty_append]
      exact closeBlock_header indent depth text header blanks
  | cons first rest =>
      -- the last part that is kept ends with a filled line, and nothing before it is looked at
      have each : ∀ item ∈ renderEach indent (depth + 1) parts,
          isBlankText item = true ∨ FillsLine item := by
        intro item listed
        rw [renderEach_eq_map] at listed
        obtain ⟨part, member, rfl⟩ := List.mem_map.mp listed
        exact (plain part member).blank_or_fillsLine indent (depth + 1)
      have lines := fillsLine_joined each (kept ▸ List.cons_ne_nil first rest)
      rw [kept] at lines
      have closed := closeBlock_fillsLine indent depth
        (lines.append (text ++ Layout.lineAt indent depth (header ++ " \x7b"))) blanks
      simpa only [String.append_assoc] using closed

/-- The part is written as it is rendered, at every depth and after every text. -/
def Writes (part : Part) : Prop :=
  ∀ depth text, (holding indent depth text).run part.steps =
    holding indent depth (text ++ part.render indent depth)

theorem run_stepsEach {parts : List Part} (each : ∀ part ∈ parts, part.Writes indent) (depth : Nat)
    (text : String) :
    (holding indent depth text).run (stepsEach parts) =
      holding indent depth (text ++ Text.joined (renderEach indent depth parts)) := by
  induction parts generalizing text with
  | nil => simp [stepsEach, renderEach, run, Text.joined]
  | cons part rest ih =>
      obtain ⟨here, later⟩ := List.forall_mem_cons.mp each
      rw [stepsEach, run_append, here, ih later, renderEach, Text.joined, String.append_assoc]

theorem Plain.writes {part : Part} (h : part.Plain) : part.Writes indent := by
  induction h with
  | @line content nonempty ending =>
      intro depth text
      rw [render]
      exact line_holding indent depth text content
  | blank =>
      intro depth text
      rw [render]
      exact blank_holding indent depth text
  | @docs comment endings =>
      intro depth text
      rw [render]
      exact docs_holding indent depth text comment
  | @block header parts inner ih =>
      intro depth text
      rw [steps, run_cons, run_append, Step.apply, openBlock_holding, run_stepsEach indent ih]
      exact closeBlock_parts indent inner depth text header

end Part

theorem depth_docs (draft : Draft) (comment : DocComment) :
    (draft.docs comment).depth = draft.depth := by
  rw [← holding_text draft, docs_holding]
  rfl

theorem depth_closeBlock (draft : Draft) : draft.closeBlock.depth = draft.depth - 1 := by
  unfold closeBlock
  split
  · rename_i outside
    rw [outside]
  · rename_i depth inside
    rw [inside]
    split <;> rfl

theorem closeBlock_of_depth_zero {draft : Draft} (h : draft.depth = 0) :
    draft.closeBlock = draft := by
  rw [closeBlock, h]

theorem depth_apply (draft : Draft) (step : Step) :
    (step.apply draft).depth = step.depthAfter draft.depth := by
  cases step with
  | line text => rfl
  | blank => rfl
  | docs comment => exact depth_docs draft comment
  | openBlock header => rfl
  | closeBlock => exact depth_closeBlock draft

theorem run_of_closesAdded {depth : Nat} {steps more : List Step} (h : ClosesAdded depth steps more)
    {draft : Draft} (here : draft.depth = depth) : draft.run more = draft.run steps := by
  induction h generalizing draft with
  | nil depth => rfl
  | step step later ih =>
      rw [run_cons, run_cons]
      apply ih
      rw [depth_apply, here]
  | close later ih =>
      rw [run_cons, Step.apply, closeBlock_of_depth_zero here]
      exact ih here

theorem run_replicate_closeBlock (draft : Draft) (count : Nat) :
    draft.run (List.replicate count .closeBlock) = draft.closeBlocks count := by
  induction count generalizing draft with
  | zero => rfl
  | succ count ih =>
      rw [List.replicate_succ, run_cons, ih]
      rfl

theorem depth_closeBlocks (draft : Draft) (count : Nat) :
    (draft.closeBlocks count).depth = draft.depth - count := by
  induction count with
  | zero => rfl
  | succ count ih => rw [closeBlocks_succ, depth_closeBlock, ih, Nat.sub_sub]

/-- Closing more blocks than are open is finishing the draft. -/
theorem finish_eq_of_depth_le {draft : Draft} {count : Nat} (h : draft.depth ≤ count) :
    draft.finish = (draft.closeBlocks count).buffer := by
  induction count, h using Nat.le_induction with
  | base => rfl
  | succ count le ih =>
      have closed : (draft.closeBlocks count).depth = 0 := by
        rw [depth_closeBlocks]
        omega
      rw [ih, closeBlocks_succ, closeBlock_of_depth_zero closed]

/-- Steps after which closing some blocks leaves a whole document finish it themselves. -/
theorem finish_run_of_closed {draft closed : Draft} {steps : List Step} {omitted : Nat}
    (h : draft.run (steps ++ List.replicate omitted .closeBlock) = closed)
    (whole : closed.depth = 0) : (draft.run steps).finish = closed.buffer := by
  rw [run_append, run_replicate_closeBlock] at h
  rw [← h]
  apply finish_eq_of_depth_le
  rw [← h, depth_closeBlocks] at whole
  omega

/-- A document of plain parts is written and finished as it is rendered, after whatever the buffer
held before. The same text comes out when any number of its last closing steps are left out and
closing steps are added anywhere that no block is open. -/
theorem finish_eq_rendered (buffer : Buffer) (indent : String) {parts : List Part}
    (plain : ∀ part ∈ parts, part.Plain) :
    (((start buffer indent).run (Part.stepsEach parts)).finish).text =
      buffer.text ++ Text.joined (Part.renderEach indent 0 parts) ∧
    ∀ (steps more : List Step) (omitted : Nat),
      Part.stepsEach parts = steps ++ List.replicate omitted .closeBlock →
      ClosesAdded 0 steps more →
      (((start buffer indent).run more).finish).text =
        buffer.text ++ Text.joined (Part.renderEach indent 0 parts) := by
  have written := Part.run_stepsEach indent (fun part member => (plain part member).writes indent)
    0 buffer.text
  have started : holding indent 0 buffer.text = start buffer indent :=
    holding_text (start buffer indent)
  rw [started] at written
  have variants (steps more : List Step) (omitted : Nat)
      (split : Part.stepsEach parts = steps ++ List.replicate omitted .closeBlock)
      (added : ClosesAdded 0 steps more) : (((start buffer indent).run more).finish).text =
        buffer.text ++ Text.joined (Part.renderEach indent 0 parts) := by
    rw [split] at written
    rw [run_of_closesAdded added rfl, finish_run_of_closed written rfl]
    exact text_holding ..
  refine ⟨variants _ _ 0 ?_ (.refl 0 _), variants⟩
  rw [List.replicate_zero, List.append_nil]

/-- Two blocks in a block, with blank lines wherever one can stand. -/
def outerParts : List Part :=
  let inner : Part :=
    .block "interface IInner" [.line "int A();", .blank, .line "int B();", .blank, .docs ⟨[]⟩]
  [.docs ⟨[" Outer."]⟩, .block "class Outer" [.blank, inner, .block "enum E" [.blank], .blank]]

theorem plain_outerParts : ∀ part ∈ outerParts, part.Plain := by
  have methods : (Part.line "int A();").Plain ∧ (Part.line "int B();").Plain :=
    ⟨.line (by decide) (by decide), .line (by decide) (by decide)⟩
  have comments : (Part.docs ⟨[" Outer."]⟩).Plain ∧ (Part.docs ⟨[]⟩).Plain :=
    ⟨.docs (by decide), .docs (by decide)⟩
  have inner : (Part.block "interface IInner"
      [.line "int A();", .blank, .line "int B();", .blank, .docs ⟨[]⟩]).Plain :=
    .block (by simp [methods, comments, Part.Plain.blank])
  have empty : (Part.block "enum E" [.blank]).Plain := .block (by simp [Part.Plain.blank])
  refine List.forall_mem_cons.mpr ⟨comments.1, List.forall_mem_singleton.mpr (.block ?_)⟩
  simp [inner, empty, Part.Plain.blank]

/-- The last brace is left out, and one that closes nothing stands in front. -/
theorem finish_eq_rendered_outerParts :
    (∀ part ∈ outerParts, part.Plain) ∧
      (((start .empty "  ").run (.closeBlock :: (Part.stepsEach outerParts).dropLast)).finish).text =
        "/// Outer.\nclass Outer \x7b\n\n  interface IInner \x7b\n    int A();\n\n    int B();\n" ++
          "  \x7d\n  enum E \x7b\x7d\n\x7d\n" := by
  refine ⟨plain_outerParts, ?_⟩
  rw [(finish_eq_rendered .empty "  " plain_outerParts).2 _ _ 1 rfl (.close (.refl 0 _))]
  decide +kernel

end Draft
end InterfaceGen
