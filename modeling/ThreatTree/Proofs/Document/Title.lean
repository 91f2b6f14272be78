import ThreatTree.Proofs.Yaml.Scalar
import ThreatTree.Proofs.Yaml.Value
import ThreatTree.Document.OfValue

/-!
# Titles in front of sections

A file that starts with a title, with any text that can be written and read back, has the tokens
of the title in front of the tokens of what follows (`ofText_titled`). With the sections of a new
file behind it, these are the tokens of a tree; the title is one entry of its value, and a
document keeps it apart from everything else (`ofValue_title`).

So whatever the title is, the document differs from the one that a new file starts with in
nothing but the title (`ofText_titled_seed`).
-/

namespace ThreatTree

open Yaml

/-! ## The first entry of a mapping -/

namespace Value.Entries

theorem get?_cons_of_ne {name key : String} (h : key ≠ name) (v : Value) (es : Entries) :
    get? name ((.str key, v) :: es) = get? name es := by
  rw [get?, if_neg h]

/-- A key that is set once stays in front. -/
theorem ofPairs_cons {key value : Value} {pairs : List (Value × Value)}
    (h : ∀ p ∈ pairs, sameKey key p.1 = false) :
    ofPairs ((key, value) :: pairs) = (key, value) :: ofPairs pairs := by
  have hfold (acc : Entries) :
      pairs.foldl (fun es p => set p.1 p.2 es) ((key, value) :: acc)
        = (key, value) :: pairs.foldl (fun es p => set p.1 p.2 es) acc := by
    induction pairs generalizing acc with
    | nil => rfl
    | cons p pairs ih =>
      obtain ⟨hp, hmore⟩ := List.forall_mem_cons.mp h
      rw [List.foldl_cons, set, hp]
      exact ih hmore _
  exact hfold []

end Value.Entries

namespace Yaml.Writing

/-- A text as the word that it is written as. -/
def word (s : List Char) : Word where
  chars := s
  isPlain := isPlain s
  isText := by
    rw [Node.scalarTag]
    cases h : isPlain s with
    | false => rfl
    | true =>
      simp only [isPlain, Bool.and_eq_true, beq_iff_eq] at h
      exact h.1.1.1.1.1.1.1.1

end Yaml.Writing

namespace Document

open Writing

/-! ## The tokens of a title -/

def titleKey : List Char := "title: ".toList

/-- A file that starts with a title. -/
def titled (title rest : List Char) : List Char :=
  titleKey ++ (scalar titleKey.length title ++ '\n' :: '\n' :: rest)

theorem isDirect_titled (title : List Char) {rest : List Char}
    (h : ∀ ch ∈ rest, isDirect ch = true) : ∀ ch ∈ titled title rest, isDirect ch = true := by
  rw [titled, List.forall_mem_append, List.forall_mem_append]
  have hempty : isDirect '\n' = true := rfl
  exact ⟨isDirect_of_all (by decide), isDirect_scalar _ title,
    List.forall_mem_cons.mpr ⟨hempty, List.forall_mem_cons.mpr ⟨hempty, h⟩⟩⟩

theorem step_key (s : List Char) : (Lexer.start (titleKey ++ s)).step
    = .ok ⟨⟨": ".toList ++ s, 5, 0, 5⟩, [], false, some ⟨0, false, 0, 0, 0⟩, [],
        [.scalar "title".toList true]⟩ :=
  rfl

theorem step_colon (s : List Char) :
    Lexer.step ⟨⟨": ".toList ++ s, 5, 0, 5⟩, [], false, some ⟨0, false, 0, 0, 0⟩, [],
        [.scalar "title".toList true]⟩
      = .ok ⟨⟨' ' :: s, 6, 0, 6⟩, [0], false, none, [],
          [.value, .scalar "title".toList true, .key, .blockMappingStart]⟩ :=
  rfl

/-- **The tokens of a title stand in front of those of what follows**, which can be read at any
place but the start of a file. -/
theorem ofText_titled {s rest : List Char} {ts : List Token} {n : Nat} (hs : IsReadBack s)
    (hrest : Lexer.AtToken rest) (hmark : atDocumentMark rest = false)
    (hdirect : ∀ ch ∈ rest, isDirect ch = true) (hn : n ≤ rest.length)
    (h : TokenStream.ofLexer n ⟨⟨rest, 1, 0, 0⟩, [0], true, none, [], []⟩ = ⟨ts, none⟩) :
    TokenStream.ofText (titled s rest)
      = ⟨.blockMappingStart :: .key :: .scalar "title".toList true :: .value
          :: .scalar s (Writing.isPlain s) :: ts, none⟩ := by
  have hall : (titled s rest).all isAllowed = true := List.all_eq_true.mpr fun ch hch =>
    (isAllowed_of_isDirect (isDirect_titled s hdirect ch hch)).1
  have hbyte : rest.head? ≠ some '\ufeff' := fun hhead =>
    absurd (hdirect _ (List.mem_of_mem_head? hhead)) (by decide)
  obtain ⟨m, hm, hle⟩ : ∃ m, (titled s rest).length + 2 = m + 1 + 1 + 1 ∧ n ≤ m := by
    refine ⟨(titled s rest).length - 1, ?_, ?_⟩ <;>
      simp only [titled, List.length_append, List.length_cons] <;> omega
  let front : List Token := [.value, .scalar "title".toList true, .key, .blockMappingStart]
  obtain ⟨y, index, line, hstep, htokens, hnext⟩ :=
    @Lexer.exists_step_scalar rest
      ⟨' ' :: (scalar titleKey.length s ++ '\n' :: '\n' :: rest), 6, 0, 6⟩ front s
      hs titleKey.length hrest hmark hbyte rfl
  rw [TokenStream.ofText, if_pos hall, hm, titled,
    TokenStream.ofLexer_of_step (step_key _) (by simp),
    TokenStream.ofLexer_of_step (step_colon _) (by simp),
    TokenStream.ofLexer_of_step hstep (by simp [htokens])]
  -- What follows is read behind the title as it is read alone.
  let base : Lexer := ⟨⟨rest, 0, 0, 0⟩, [0], true, none, [], []⟩
  let front' : List Token := .scalar s (Writing.isPlain s) :: front
  have hmoved : TokenStream.ofLexer n (base.behind (index + 1) line front')
      = ⟨front'.reverse ++ ts, none⟩ :=
    @TokenStream.ofLexer_behind 0 0 index line n front' ts base (by simp [front']) h
  have hplace : base.behind (index + 1) line front'
      = ⟨⟨rest, index + 1, line, 0⟩, [0], true, none, [], front'⟩ := by
    simp only [base, Lexer.behind, Cursor.moved, Nat.zero_add]
    rfl
  have hsame : y.toToken = (base.behind (index + 1) line front').toToken := by
    rw [hnext, hplace]
    exact (Lexer.toToken_of_atToken hrest hbyte).symm
  rw [TokenStream.ofLexer_of_toToken_eq hsame (TokenStream.ofLexer_of_le hmoved hle)]
  rfl

/-! ## The sections of a new file -/

/-- What follows the title in a new file, from the first section on. -/
def seedSections : List Char := seed.toList.drop 24

set_option maxRecDepth 2000 in
theorem seed_eq_titled : seed.toList = titled "New Attack Tree".toList seedSections := by
  rw [seedSections, seed, String.toList_join]
  decide +kernel

theorem seedSections_spec : seedSections.all isDirect = true ∧ atGap seedSections = false
    ∧ seedSections.head? ≠ some '#' ∧ atDocumentMark seedSections = false
    ∧ 100 ≤ seedSections.length := by
  rw [seedSections, seed, String.toList_join]
  decide +kernel

def plainWord (s : String) (h : Tag.ofPlain s.toList = .str) : Word where
  chars := s.toList
  isPlain := true
  isText := by rw [Yaml.Node.scalarTag]; exact h

def fromWord : Word := plainWord "from" (by decide +kernel)

def reality : Word := plainWord "reality" (by decide +kernel)

def initialAttack : Word := plainWord "initial_attack" (by decide +kernel)

/-- A section with one entry. -/
def seedSection (id label : Word) (sources : Tree.Items) : Tree :=
  .list (.cons (.mapping (.cons id (.text label) (.cons fromWord (.list sources) .nil))) .nil)

def sectionTrees : Tree.Entries :=
  .cons (plainWord "facts" (by decide +kernel))
    (seedSection reality (plainWord "Starting point" (by decide +kernel)) .nil) <|
  .cons (plainWord "attacks" (by decide +kernel))
    (seedSection initialAttack (plainWord "Initial attack vector" (by decide +kernel))
      (.cons (.text reality) .nil)) <|
  .cons (plainWord "mitigations" (by decide +kernel))
    (seedSection (plainWord "defense" (by decide +kernel))
      (plainWord "Defense mechanism" (by decide +kernel)) (.cons (.text initialAttack) .nil)) <|
  .cons (plainWord "goals" (by decide +kernel))
    (seedSection (plainWord "compromise" (by decide +kernel))
      (plainWord "System compromise" (by decide +kernel)) (.cons (.text initialAttack) .nil)) .nil

/-- The data of a new file with a title. -/
def newTree (title : Word) : Tree :=
  .mapping (.cons (plainWord "title" (by decide +kernel)) (.text title) sectionTrees)

set_option maxRecDepth 10000 in
theorem ofLexer_seedSections :
    TokenStream.ofLexer 100 ⟨⟨seedSections, 1, 0, 0⟩, [0], true, none, [], []⟩
      = ⟨sectionTrees.tokens ++ [.blockEnd, .streamEnd], none⟩ := by
  rw [seedSections, seed, String.toList_join]
  with_unfolding_all rfl

theorem ofText_titled_seedSections {s : List Char} (h : IsReadBack s) :
    TokenStream.ofText (titled s seedSections)
      = ⟨(newTree (word s)).tokens false ++ [.streamEnd], none⟩ := by
  obtain ⟨hdirect, hgap, hhash, hmark, hlength⟩ := seedSections_spec
  rw [ofText_titled h ⟨hgap, hhash⟩ hmark (List.all_eq_true.mp hdirect) hlength
    ofLexer_seedSections]
  rfl

/-! ## Documents with a title -/

theorem sectionName_ne_title (category : Category) : "title" ≠ category.sectionName := by
  cases category <;> decide

/-- The title of a document is all that the text under `title` decides. -/
theorem ofValue_title (t u : String) (es : Value.Entries) :
    ofValue (.mapping ((.str "title", .str u) :: es))
      = (ofValue (.mapping ((.str "title", .str t) :: es))).map fun d => { d with title := u } := by
  have htitle (t : String) : readText "title" ((.str "title", .str t) :: es) = .ok (some t) := by
    rw [readText, Value.Entries.get?, if_pos rfl]
    rfl
  have htheme (t : String) :
      readText "theme" ((.str "title", .str t) :: es) = readText "theme" es := by
    rw [readText, readText, Value.Entries.get?_cons_of_ne (by decide)]
  have hsection (t : String) (category : Category) :
      readSection category ((.str "title", .str t) :: es) = readSection category es := by
    rw [readSection, readSection, Value.Entries.get?_cons_of_ne (sectionName_ne_title category)]
  simp only [ofValue, htitle, htheme, hsection]
  cases readText "theme" es with
  | error e => rfl
  | ok theme =>
    cases readSection .fact es with
    | error e => rfl
    | ok facts =>
      cases readSection .attack es with
      | error e => rfl
      | ok attacks =>
        cases readSection .mitigation es with
        | error e => rfl
        | ok mitigations => cases readSection .goal es <;> rfl

/-- The value of a new file with a title. -/
def newValue (title : String) : Value :=
  .mapping ((.str "title", .str title) :: Value.Entries.ofPairs sectionTrees.values)

theorem value_newTree (w : Word) : (newTree w).value = newValue (String.ofList w.chars) := by
  have hkeys : ∀ p ∈ sectionTrees.values, Value.sameKey (.str "title") p.1 = false := by
    decide +kernel
  rw [newValue, ← Value.Entries.ofPairs_cons hkeys]
  rfl

theorem ofText_titled_eq {s : List Char} (h : IsReadBack s) :
    ofText (String.ofList (titled s seedSections))
      = (ofValue (newValue (String.ofList s))).mapError .refused := by
  have hheight : (newTree (word s)).height ≤ Yaml.Node.depthLimit := by
    have heq : (newTree (word s)).height = 4 := by rfl
    rw [heq]
    decide
  rw [ofText, String.toList_ofList, load_eq_value _ hheight (ofText_titled_seedSections h),
    value_newTree]
  rfl

theorem exists_ofValue_seed : ∃ d, ofValue (newValue "New Attack Tree") = .ok d := by
  have hsome : (ofValue (newValue "New Attack Tree")).toOption.isSome = true := by
    decide +kernel
  cases h : ofValue (newValue "New Attack Tree") with
  | ok d => exact ⟨d, rfl⟩
  | error e => simp [h, Except.toOption] at hsome

/-- **A new file is read as the document it starts with, under its own title.** -/
theorem ofText_titled_seed {s : List Char} (h : IsReadBack s) :
    ∃ d, ofText seed = .ok d
      ∧ ofText (String.ofList (titled s seedSections))
        = .ok { d with title := String.ofList s } := by
  have hseed : IsReadBack "New Attack Tree".toList := by
    unfold IsReadBack
    decide +kernel
  obtain ⟨d, hd⟩ := exists_ofValue_seed
  refine ⟨d, ?_, ?_⟩
  · rw [← String.ofList_toList (s := seed), seed_eq_titled, ofText_titled_eq hseed,
      String.ofList_toList, hd]
    rfl
  · rw [ofText_titled_eq h, newValue, ofValue_title "New Attack Tree", ← newValue, hd]
    rfl

end Document

end ThreatTree
