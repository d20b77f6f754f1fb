import InterfaceGen.Proofs.LinesAndBlanks
import InterfaceGen.Proofs.ReferenceLayout

/-!
Documentation is read back where it was written. The lines of a comment that was read have no line
feed and no blank at their end, and of every such line the mark and the text after it survive being
put behind blanks and on a line of its own: the blanks before the mark are dropped, a carriage
return inside the line stays where it is, and slashes after the mark belong to the text.
-/

namespace InterfaceGen
namespace Text

theorem afterStart_eq_some_iff {start text rest : List Char} :
    afterStart start text = some rest ↔ text = start ++ rest := by
  fun_induction afterStart start text with
  | case1 text => simp
  | case2 s start => simp
  | case3 s start text ih => simp [ih]
  | case4 s start c text other => simp [Ne.symm other]

theorem mem_repeated {item : String} {count : Nat} {c : Char} (h : c ∈ (repeated item count).toList) :
    c ∈ item.toList := by
  induction count with
  | zero => cases h
  | succ count ih =>
      rw [repeated, String.toList_append] at h
      exact (List.mem_append.mp h).elim id ih

end Text

theorem Draft.text_docs (draft : Draft) (comment : DocComment) :
    (draft.docs comment).buffer.text =
      draft.buffer.text ++ Layout.linesAt draft.indent draft.depth comment.rendered := by
  have written := docs_holding draft.indent draft.depth draft.buffer.text comment
  rw [holding_text] at written
  rw [written, text_holding]

namespace DocComment

/-- A comment of at least one line, whose lines hold no line feed and do not end with a blank. -/
structure IsStripped (comment : DocComment) : Prop where
  nonempty : comment.lines ≠ []
  unbroken : ∀ line ∈ comment.lines, '\n' ∉ line.toList
  trimmed : ∀ line ∈ comment.lines, Text.EndsVisible line.toList

theorem parse_eq_some_iff {trivia : String} {comment : DocComment} :
    parse trivia = some comment ↔
      (Text.lines trivia).filterMap lineText? = comment.lines ∧ comment.lines ≠ [] := by
  obtain ⟨lines⟩ := comment
  cases found : (Text.lines trivia).filterMap lineText? with
  | nil => simp [parse, found, eq_comm]
  | cons first rest =>
      simp only [parse, found, Option.some.injEq, DocComment.mk.injEq]
      constructor
      · rintro rfl
        exact ⟨rfl, List.cons_ne_nil first rest⟩
      · exact And.left

theorem lineText?_marked {blanks line : String} (blank : ∀ c ∈ blanks.toList, Text.isBlank c = true)
    (trimmed : Text.EndsVisible line.toList) : lineText? (blanks ++ mark ++ line) = some line := by
  have visible : Text.dropBlanks (mark.toList ++ line.toList) = mark.toList ++ line.toList :=
    Text.dropBlanks_of_visible (by rintro c ⟨⟩; decide)
  have rest : Text.afterStart mark.toList (Text.dropBlanks (blanks ++ mark ++ line).toList) =
      some line.toList := by
    rw [String.append_assoc, String.toList_append, String.toList_append, Text.dropBlanks,
      List.dropWhile_append_of_pos blank, ← Text.dropBlanks, visible, Text.afterStart_eq_some_iff]
  rw [lineText?, rest, Option.map_some, Text.trimEnd, String.toList_ofList,
    Text.dropBlanksEnd_eq_self_iff.mpr trimmed, String.ofList_toList]

theorem isLine_marked {blanks line : String} (blank : '\n' ∉ blanks.toList)
    (unbroken : '\n' ∉ line.toList) (trimmed : Text.EndsVisible line.toList) :
    Text.IsLine (blanks ++ mark ++ line) := by
  -- an empty line ends with the mark
  have slash : Text.EndsVisible (blanks ++ mark).toList := by
    intro c last
    have ends : (blanks ++ mark).toList.getLast? = some '/' := by simp [mark]
    cases ends.symm.trans last
    decide
  have feed : '\n' ∉ mark.toList := by decide
  apply Text.EndsVisible.isLine
  · rw [String.toList_append]
    exact slash.append trimmed
  · simp [blank, unbroken, feed]

/-- What is read of a line holds nothing that the line does not hold, and is trimmed. -/
theorem stripped_of_lineText? {line found : String} (h : lineText? line = some found)
    (unbroken : '\n' ∉ line.toList) :
    '\n' ∉ found.toList ∧ Text.EndsVisible found.toList := by
  obtain ⟨rest, marked, rfl⟩ := Option.map_eq_some_iff.mp h
  rw [Text.afterStart_eq_some_iff] at marked
  rw [Text.trimEnd, String.toList_ofList, String.toList_ofList]
  refine ⟨fun feed => unbroken ?_, Text.endsVisible_dropBlanksEnd rest⟩
  have inRest : '\n' ∈ rest := (List.rdropWhile_prefix Text.isBlank rest).subset feed
  apply (List.dropWhile_suffix Text.isBlank).subset
  rw [← Text.dropBlanks, marked]
  exact List.mem_append_right _ inRest

theorem isStripped_of_parse {trivia : String} {comment : DocComment}
    (h : parse trivia = some comment) : comment.IsStripped := by
  obtain ⟨read, nonempty⟩ := parse_eq_some_iff.mp h
  have each : ∀ line ∈ comment.lines, '\n' ∉ line.toList ∧ Text.EndsVisible line.toList := by
    intro line listed
    rw [← read] at listed
    obtain ⟨source, cut, found⟩ := List.mem_filterMap.mp listed
    exact stripped_of_lineText? found (Text.newline_not_mem_of_mem_lines cut)
  exact ⟨nonempty, fun line listed => (each line listed).1, fun line listed => (each line listed).2⟩

namespace IsStripped

variable {comment : DocComment}

/-- A comment is read wherever its lines stand behind their marks and the same blanks. -/
theorem parse_of_lines (h : comment.IsStripped) {blanks text : String}
    (blank : ∀ c ∈ blanks.toList, Text.isBlank c = true)
    (cut : Text.lines text = comment.lines.map (blanks ++ mark ++ ·)) :
    parse text = some comment := by
  refine parse_eq_some_iff.mpr ⟨?_, h.nonempty⟩
  rw [cut, List.filterMap_map]
  calc comment.lines.filterMap (lineText? ∘ (blanks ++ mark ++ ·))
    _ = comment.lines.filterMap some :=
        List.filterMap_congr fun line listed => lineText?_marked blank (h.trimmed line listed)
    _ = comment.lines := List.filterMap_some

theorem isLine_of_mem (h : comment.IsStripped) {blanks : String} (blank : '\n' ∉ blanks.toList) :
    ∀ item ∈ comment.lines.map (blanks ++ mark ++ ·), Text.IsLine item := by
  intro item listed
  obtain ⟨line, member, rfl⟩ := List.mem_map.mp listed
  exact isLine_marked blank (h.unbroken line member) (h.trimmed line member)

theorem parse_separated (h : comment.IsStripped) :
    parse (Text.separated "\n" comment.rendered) = some comment := by
  have marked : comment.rendered = comment.lines.map ("" ++ mark ++ ·) := by
    simp [rendered]
  rw [marked]
  refine h.parse_of_lines (by simp) (Text.lines_separated (h.isLine_of_mem (by simp)) ?_)
  intro item listed
  obtain ⟨line, -, rfl⟩ := List.mem_map.mp listed
  simp [mark]

theorem parse_linesAt (h : comment.IsStripped) {indent : String}
    (blank : ∀ c ∈ indent.toList, Text.isBlank c = true ∧ c ≠ '\n') (depth : Nat) :
    parse (Layout.linesAt indent depth comment.rendered) = some comment := by
  have blanks : ∀ c ∈ (Text.repeated indent depth).toList, Text.isBlank c = true :=
    fun c listed => (blank c (Text.mem_repeated listed)).1
  have unbroken : '\n' ∉ (Text.repeated indent depth).toList :=
    fun listed => (blank _ (Text.mem_repeated listed)).2 rfl
  have written : Layout.linesAt indent depth comment.rendered =
      Text.joined ((comment.lines.map (Text.repeated indent depth ++ mark ++ ·)).map (· ++ "\n")) := by
    simp [Layout.linesAt, Layout.lineAt, rendered, Function.comp_def, String.append_assoc]
  rw [written]
  exact h.parse_of_lines blanks (Text.lines_joined (h.isLine_of_mem unbroken))

end IsStripped

/-- A comment that was read is read again where a draft writes it, at every depth and behind every
indentation of blanks. The comments that can be read are those of at least one line whose lines have
no line feed and no blank at their end, and each of these is read where its marked lines stand one
below the other. -/
theorem parse_written (comment : DocComment) :
    (∀ trivia, parse trivia = some comment →
      ∀ draft : Draft, (∀ c ∈ draft.indent.toList, Text.isBlank c = true ∧ c ≠ '\n') →
        ∃ written, (draft.docs comment).buffer.text = draft.buffer.text ++ written ∧
          parse written = some comment) ∧
    (comment.IsStripped → parse (Text.separated "\n" comment.rendered) = some comment) ∧
    ∀ trivia, parse trivia = some comment → comment.IsStripped := by
  refine ⟨?_, IsStripped.parse_separated, fun trivia => isStripped_of_parse⟩
  intro trivia read draft blank
  exact ⟨_, draft.text_docs comment, (isStripped_of_parse read).parse_linesAt blank draft.depth⟩

/-- Two lines of documentation around a plain comment. The first has a carriage return inside and
the second starts with a slash. -/
def mixedTrivia : String :=
  "\t///  <summary>\r of \r\n // plain\n\u3000////a /// \n"

theorem parse_written_mixedTrivia :
    let comment : DocComment := ⟨["  <summary>\r of", "/a ///"]⟩
    let draft : Draft := ⟨" \r", 2, Buffer.empty.push "class C \x7b\n"⟩
    parse mixedTrivia = some comment ∧
      parse "///  <summary>\r of\n////a ///" = some comment ∧
      ∃ written, (draft.docs comment).buffer.text = "class C \x7b\n" ++ written ∧
        parse written = some comment := by
  intro comment draft
  have read : parse mixedTrivia = some comment := by decide +kernel
  obtain ⟨emitted, separated, stripped⟩ := parse_written comment
  have marked : Text.separated "\n" comment.rendered = "///  <summary>\r of\n////a ///" := by
    decide +kernel
  have blank : ∀ c ∈ draft.indent.toList, Text.isBlank c = true ∧ c ≠ '\n' := by
    intro c member
    obtain rfl | rfl : c = ' ' ∨ c = '\r' := by simpa [draft] using member
    · decide
    · decide
  exact ⟨read, marked ▸ separated (stripped mixedTrivia read), emitted mixedTrivia read draft blank⟩

end DocComment
end InterfaceGen
