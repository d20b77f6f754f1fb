import InterfaceGen.Proofs.TypeGrammar

/-!
Where the tokens of a text stand. A text can be cut before each of its tokens: what stands before
the cut has the tokens before the cut, and it keeps them under every continuation that does not run
into its last token, which are those that start with a blank or as the text itself goes on. The
offset of the next token is the number of bytes before the cut.
-/

namespace InterfaceGen
namespace Text

/-- The number of bytes that the characters take in UTF-8. -/
def byteLength : List Char → Nat
  | [] => 0
  | c :: rest => c.utf8Size + byteLength rest

@[simp] theorem byteLength_append (text more : List Char) :
    byteLength (text ++ more) = byteLength text + byteLength more := by
  induction text with
  | nil => simp [byteLength]
  | cons c rest ih => simp [byteLength, ih, Nat.add_assoc]

theorem byteLength_toList (text : String) : byteLength text.toList = text.utf8ByteSize := by
  have ofList (chars : List Char) : byteLength chars = (String.ofList chars).utf8ByteSize := by
    induction chars with
    | nil => rfl
    | cons c rest ih =>
        have split : String.ofList (c :: rest) = String.singleton c ++ String.ofList rest := by
          apply String.toList_inj.mp
          simp
        rw [byteLength, ih, split, String.utf8ByteSize_append, String.utf8ByteSize_singleton]
  rw [ofList, String.ofList_toList]

theorem not_continuesWord_of_isBlank {c : Char} (h : isBlank c = true) :
    continuesWord c = false := by
  have outside : ∀ n ∈ blankCodes, continuesWord (Char.ofNat n) = false := by decide +kernel
  have code := outside _ (mem_blankCodes_of_isBlank h)
  rwa [Char.ofNat_toNat] at code

end Text

namespace TypeRef
namespace Token
open Text

theorem scanFrom_append (skipped : List Char) (offset : Nat) (rest : List Char) :
    scanFrom skipped.length offset (skipped ++ rest) =
      scanFrom 0 (offset + byteLength skipped) rest := by
  induction skipped generalizing offset with
  | nil => rfl
  | cons c more ih =>
      rw [List.length_cons, List.cons_append, scanFrom, ih, byteLength, Nat.add_assoc]

@[simp] theorem scanFrom_nil (offset : Nat) : scanFrom 0 offset [] = [] := rfl

theorem scanFrom_blank {c : Char} (blank : isBlank c = true) (offset : Nat) (rest : List Char) :
    scanFrom 0 offset (c :: rest) = scanFrom 0 (offset + c.utf8Size) rest := by
  rw [scanFrom, if_pos blank]

theorem scanFrom_word {first : Char} (starts : startsWord first = true) {more rest : List Char}
    (continues : ∀ c ∈ more, continuesWord c = true) (maximal : Stops rest) (offset : Nat) :
    scanFrom 0 offset (first :: (more ++ rest)) =
      ⟨offset, .word first more⟩ :: scanFrom 0 (offset + byteLength (first :: more)) rest := by
  have taken : (more ++ rest).takeWhile continuesWord = more := by
    rw [List.takeWhile_append_of_pos continues, maximal.takeWhile, List.append_nil]
  have blank := not_isBlank_of_startsWord starts
  rw [scanFrom, if_neg (by simp [blank]), if_pos starts]
  dsimp only
  rw [taken, scanFrom_append, byteLength, Nat.add_assoc]

theorem scanFrom_aliasMark (offset : Nat) (rest : List Char) :
    scanFrom 0 offset (':' :: ':' :: rest) =
      ⟨offset, .aliasMark⟩ :: scanFrom 0 (offset + byteLength [':', ':']) rest := by
  rw [scanFrom, if_neg (by decide), if_neg (by decide), if_pos (by simp), scanFrom]
  rfl

theorem scanFrom_other {c : Char} (blank : isBlank c = false) (starts : startsWord c = false)
    {rest : List Char} (pair : ¬ (c = ':' ∧ rest.head? = some ':')) (offset : Nat) :
    scanFrom 0 offset (c :: rest) =
      ⟨offset, .mark c⟩ :: scanFrom 0 (offset + c.utf8Size) rest := by
  rw [scanFrom, if_neg (by simp [blank]), if_neg (by simp [starts]), if_neg pair]

/-- The text is empty, starts with a blank, or starts with the same character as the other one. -/
def StartsLike (text other : List Char) : Prop :=
  ∀ c ∈ text.head?, isBlank c = true ∨ c ∈ other.head?

theorem startsLike_self (text : List Char) : StartsLike text text :=
  fun _ head => .inr head

theorem startsLike_nil (other : List Char) : StartsLike [] other := by
  simp [StartsLike]

theorem startsLike_blank {c : Char} (blank : isBlank c = true) (rest other : List Char) :
    StartsLike (c :: rest) other := by
  rintro d ⟨⟩
  exact .inl blank

theorem startsLike_cons (c : Char) (rest more : List Char) :
    StartsLike (c :: rest) (c :: more) := by
  rintro d ⟨⟩
  exact .inr rfl

theorem StartsLike.append {other rest : List Char} (h : StartsLike other rest)
    (front : List Char) : StartsLike (front ++ other) (front ++ rest) := by
  cases front with
  | nil => exact h
  | cons c more => exact startsLike_cons c _ _

theorem StartsLike.stops {other rest : List Char} (h : StartsLike other rest) (stops : Stops rest) :
    Stops other := by
  intro c head
  obtain blank | same := h c head
  · exact not_continuesWord_of_isBlank blank
  · exact stops c same

theorem StartsLike.head? {other rest : List Char} (h : StartsLike other rest) {c : Char}
    (visible : isBlank c = false) (head : other.head? = some c) : rest.head? = some c := by
  obtain blank | same := h c head
  · rw [visible] at blank
    cases blank
  · exact same

/-- The text, which starts at byte `base`, is cut into `front` and `rest` after the tokens `before`.
Nothing that starts like `rest` adds to these tokens, and `rest` does not start with a blank. -/
structure Cut (base : Nat) (text : List Char) (before : List PlacedToken)
    (front rest : List Char) : Prop where
  text_eq : text = front ++ rest
  visible : ∀ c ∈ rest.head?, isBlank c = false
  scanned : ∀ other, StartsLike other rest →
    scanFrom 0 base (front ++ other) = before ++ scanFrom 0 (base + byteLength front) other

theorem Cut.scan_front {base : Nat} {text front rest : List Char} {before : List PlacedToken}
    (cut : Cut base text before front rest) : scanFrom 0 base front = before := by
  simpa using cut.scanned [] (startsLike_nil rest)

theorem Cut.scan_rest {base : Nat} {text front rest : List Char} {before after : List PlacedToken}
    (cut : Cut base text before front rest) (h : scanFrom 0 base text = before ++ after) :
    scanFrom 0 (base + byteLength front) rest = after := by
  have all := cut.scanned rest (startsLike_self rest)
  rw [← cut.text_eq, h] at all
  exact (List.append_cancel_left all).symm

/-- No cut is needed before the first token of a text that does not start with a blank. -/
theorem cut_nil {base : Nat} {text : List Char} (visible : ∀ c ∈ text.head?, isBlank c = false) :
    Cut base text [] [] text :=
  ⟨rfl, visible, fun _ _ => rfl⟩

/-- A cut is carried over to a longer text, whose additional part has these tokens under every
continuation that starts like the text did. -/
theorem Cut.after {base : Nat} {start text front rest : List Char}
    {tokens before : List PlacedToken}
    (cut : Cut (base + byteLength start) text before front rest)
    (h : ∀ other, StartsLike other text →
      scanFrom 0 base (start ++ other) = tokens ++ scanFrom 0 (base + byteLength start) other) :
    Cut base (start ++ text) (tokens ++ before) (start ++ front) rest where
  text_eq := by rw [cut.text_eq, List.append_assoc]
  visible := cut.visible
  scanned := by
    intro other like
    have longer := like.append front
    rw [← cut.text_eq] at longer
    rw [List.append_assoc, h _ longer, cut.scanned other like, byteLength_append,
      List.append_assoc, Nat.add_assoc]

/-- The token can be the one that starts with this character. -/
inductive StartedBy (c : Char) : Token → Prop where
  | word (starts : startsWord c = true) (more : List Char) : StartedBy c (.word c more)
  | aliasMark (colon : c = ':') : StartedBy c .aliasMark
  | mark (other : startsWord c = false) : StartedBy c (.mark c)

theorem StartedBy.first_eq {c : Char} {token : Token} (h : StartedBy c token) :
    token.first = c := by
  cases h with
  | word | mark => rfl
  | aliasMark colon => exact colon.symm

/-- A character that is no blank starts a token, which ends where the text stops to continue it. -/
theorem exists_token {c : Char} (visible : isBlank c = false) (text : List Char) :
    ∃ token more rest, text = more ++ rest ∧ StartedBy c token ∧
      ∀ base other, StartsLike other rest →
        scanFrom 0 base (c :: (more ++ other)) =
          ⟨base, token⟩ :: scanFrom 0 (base + byteLength (c :: more)) other := by
  by_cases starts : startsWord c = true
  · refine ⟨.word c (text.takeWhile continuesWord), text.takeWhile continuesWord,
      text.dropWhile continuesWord, List.takeWhile_append_dropWhile.symm, .word starts _, ?_⟩
    intro base other like
    exact scanFrom_word starts (List.all_eq_true.mp List.all_takeWhile)
      (like.stops (stops_dropWhile text)) base
  rw [Bool.not_eq_true] at starts
  by_cases pair : c = ':' ∧ text.head? = some ':'
  · obtain ⟨rfl, second⟩ := pair
    obtain ⟨rest, rfl⟩ := List.head?_eq_some_iff.mp second
    refine ⟨.aliasMark, [':'], rest, rfl, .aliasMark rfl, ?_⟩
    intro base other _
    exact scanFrom_aliasMark base other
  · refine ⟨.mark c, [], text, rfl, .mark starts, ?_⟩
    intro base other like
    have apart : ¬ (c = ':' ∧ other.head? = some ':') := by
      rintro ⟨colon, head⟩
      exact pair ⟨colon, like.head? (by decide) head⟩
    exact scanFrom_other visible starts apart base

theorem scanFrom_visible {c : Char} (visible : isBlank c = false) (base : Nat)
    (text : List Char) :
    ∃ token later, scanFrom 0 base (c :: text) = ⟨base, token⟩ :: later ∧ StartedBy c token := by
  obtain ⟨token, more, rest, rfl, started, scanned⟩ := exists_token visible text
  exact ⟨token, _, scanned base rest (startsLike_self rest), started⟩

/-- A text can be cut after any number of its tokens. -/
theorem exists_cut (base : Nat) (text : List Char) (before after : List PlacedToken)
    (h : scanFrom 0 base text = before ++ after) :
    ∃ front rest, Cut base text before front rest := by
  -- blanks are passed over, also before the first token; each token leaves a shorter text
  match text with
  | [] =>
      obtain ⟨rfl, -⟩ := List.append_eq_nil_iff.mp h.symm
      exact ⟨[], [], cut_nil (by simp)⟩
  | c :: text =>
      by_cases blank : isBlank c = true
      · rw [scanFrom_blank blank] at h
        obtain ⟨front, rest, cut⟩ := exists_cut _ text before after h
        have whole : Cut base ([c] ++ text) ([] ++ before) ([c] ++ front) rest :=
          cut.after fun other _ => scanFrom_blank blank base other
        exact ⟨c :: front, rest, whole⟩
      rw [Bool.not_eq_true] at blank
      cases before with
      | nil => exact ⟨[], c :: text, cut_nil (by simpa using blank)⟩
      | cons placed before =>
          obtain ⟨token, more, later, split, -, scanned⟩ := exists_token blank text
          have shorter : later.length ≤ text.length := by simp [split]
          rw [split, scanned base later (startsLike_self later), List.cons_append,
            List.cons.injEq] at h
          obtain ⟨rfl, others⟩ := h
          obtain ⟨front, rest, cut⟩ := exists_cut _ later before after others
          have whole : Cut base ((c :: more) ++ later) ([⟨base, token⟩] ++ before)
              ((c :: more) ++ front) rest :=
            cut.after fun other like => scanned base other like
          rw [split]
          exact ⟨c :: (more ++ front), rest, whole⟩
termination_by text.length

/-- Before a token a text is cut at the token's offset, and goes on with its first character. -/
theorem exists_cut_before {text : List Char} {before after : List PlacedToken}
    {placed : PlacedToken} (h : scanFrom 0 0 text = before ++ placed :: after) :
    ∃ front rest, Cut 0 text before front (placed.token.first :: rest) ∧
      byteLength front = placed.offset ∧ isBlank placed.token.first = false ∧
      StartedBy placed.token.first placed.token := by
  obtain ⟨front, rest, cut⟩ := exists_cut 0 text before _ h
  have scanned := cut.scan_rest h
  cases rest with
  | nil => cases scanned
  | cons c rest =>
      have visible := cut.visible c rfl
      obtain ⟨token, later, first, started⟩ := scanFrom_visible visible (0 + byteLength front) rest
      obtain ⟨rfl, -⟩ := List.cons.inj (first.symm.trans scanned)
      rw [started.first_eq]
      exact ⟨front, rest, cut, (Nat.zero_add _).symm, visible, started⟩

/-- After its last token nothing is left of a text but what was cut with the tokens. -/
theorem cut_all (text : List Char) : Cut 0 text (scanFrom 0 0 text) text [] := by
  have whole : scanFrom 0 0 text = scanFrom 0 0 text ++ [] := (List.append_nil _).symm
  obtain ⟨front, rest, cut⟩ := exists_cut 0 text _ _ whole
  have scanned := cut.scan_rest whole
  cases rest with
  | nil =>
      have all := cut.text_eq
      rw [List.append_nil] at all
      rwa [← all] at cut
  | cons c rest =>
      obtain ⟨token, later, first, -⟩ :=
        scanFrom_visible (cut.visible c rfl) (0 + byteLength front) rest
      cases first.symm.trans scanned

theorem scanFrom_eq_nil_iff (base : Nat) (text : List Char) :
    scanFrom 0 base text = [] ↔ ∀ c ∈ text, isBlank c = true := by
  induction text generalizing base with
  | nil => simp
  | cons c rest ih =>
      by_cases blank : isBlank c = true
      · rw [scanFrom_blank blank, ih, List.forall_mem_cons]
        exact ⟨fun h => ⟨blank, h⟩, fun h => h.2⟩
      · obtain ⟨token, later, first, -⟩ := scanFrom_visible (by simpa using blank) base rest
        simp [first, blank]

end Token
end TypeRef
end InterfaceGen
