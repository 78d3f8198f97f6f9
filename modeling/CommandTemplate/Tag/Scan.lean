import CommandTemplate.Tag.Basic

/-!
# Finding and filling tags

A tag in a text is a `<` with everything up to the next `>`, as long as no line break stands
between them.  Tags are looked for from left to right and do not overlap, so a text falls into
*pieces*: tags and single characters.  Scanning collects the tags among the pieces and
substitution replaces them, so that both see the same tags; put together again, the pieces are
the text.
-/

namespace CommandTemplate

/-- A tag of a text, or a character outside of all tags. -/
inductive Piece
  | plain (c : Char)
  | tag (token : Text)
deriving DecidableEq

/-- The part of the text that a piece covers. -/
def Piece.text : Piece → Text
  | .plain c => [c]
  | .tag token => token

/-- The part of the text that a piece stands for once tags are replaced. -/
def Piece.fill (replacement? : Text → Option Text) : Piece → Text
  | .plain c => [c]
  | .tag token => (replacement? token).getD token

/-- The part of the text that a piece stands for when the replacement of a tag is asked for, which may
have an effect of its own. -/
def Piece.fillM {m : Type → Type} [Monad m] (lookup : Text → m (Option Text)) : Piece → m Text
  | .plain c => return [c]
  | .tag token => return (← lookup token).getD token

/-- The token of a piece that is a tag. -/
def Piece.token? : Piece → Option Text
  | .plain _ => none
  | .tag token => some token

namespace Text

/-- The text up to and including the first `>`, unless a line break or the end comes first. -/
def closing? : Text → Option Text
  | [] => none
  | c :: rest =>
    if c = '>' then some ['>']
    else if c = '\n' then none
    else (closing? rest).map (c :: ·)

def tagAtStart? : Text → Option Text
  | '<' :: rest => (closing? rest).map ('<' :: ·)
  | _ => none

/-- The pieces after passing over the first `skip` characters, which belong to a tag that is
already found. -/
def piecesFrom : Nat → Text → List Piece
  | _, [] => []
  | skip + 1, _ :: rest => piecesFrom skip rest
  | 0, c :: rest =>
    match tagAtStart? (c :: rest) with
    | some token => .tag token :: piecesFrom (token.length - 1) rest
    | none => .plain c :: piecesFrom 0 rest

def pieces (text : Text) : List Piece :=
  piecesFrom 0 text

/-- The tokens of a text in their order, repeated as often as they occur. -/
def tokens (text : Text) : List Text :=
  (pieces text).filterMap Piece.token?

/-- The text with every tag that has a replacement replaced.  Replacements are not looked through
for further tags. -/
def substitute (replacement? : Text → Option Text) (text : Text) : Text :=
  (pieces text).flatMap (Piece.fill replacement?)

/-- The substitution that asks for a replacement whenever it comes to a tag. -/
def substituteM {m : Type → Type} [Monad m] (lookup : Text → m (Option Text)) (text : Text) :
    m Text :=
  return (← (pieces text).mapM (Piece.fillM lookup)).flatten

/-- Whether the text, after leading blanks, begins with the empty array `[]`. -/
def isEmptyArray (text : Text) : Bool :=
  startsWith (trimStart text) ['[', ']']

end Text

/-- Adds the tokens of a text that are not in the set yet. -/
def TagSet.scan (tags : TagSet) (text : Text) : TagSet :=
  tags.addAll text.tokens

/-- The set of the tokens of a text, in the order of their first occurrence. -/
def Text.tags (text : Text) : TagSet :=
  TagSet.scan ∅ text

namespace Text

theorem piecesFrom_eq_drop (skip : Nat) (text : Text) :
    piecesFrom skip text = pieces (text.drop skip) := by
  induction text generalizing skip with
  | nil => cases skip <;> simp [pieces, piecesFrom]
  | cons c rest ih =>
      cases skip with
      | zero => simp [pieces]
      | succ skip => simp [piecesFrom, ih]

/-- What closes a tag is the beginning of the text it is looked for in. -/
theorem closing?_isPrefix {text close : Text} (h : closing? text = some close) :
    close <+: text := by
  induction text generalizing close with
  | nil => simp [closing?] at h
  | cons c rest ih =>
      unfold closing? at h
      split at h
      · rename_i hc
        obtain rfl := Option.some.inj h
        exact ⟨rest, by simp [hc]⟩
      · split at h
        · simp at h
        · obtain ⟨tail, htail, rfl⟩ := Option.map_eq_some_iff.mp h
          simpa using ih htail

/-- A token at the start of a text is the beginning of the text. -/
theorem tagAtStart?_isPrefix {text token : Text} (h : tagAtStart? text = some token) :
    token <+: text := by
  unfold tagAtStart? at h
  split at h
  · obtain ⟨tail, htail, rfl⟩ := Option.map_eq_some_iff.mp h
    simpa using closing?_isPrefix htail
  · simp at h

theorem length_pos_of_tagAtStart? {text token : Text} (h : tagAtStart? text = some token) :
    0 < token.length := by
  unfold tagAtStart? at h
  split at h
  · obtain ⟨tail, htail, rfl⟩ := Option.map_eq_some_iff.mp h
    simp
  · simp at h

/-- Nothing of a text is lost when it is cut into pieces. -/
theorem flatMap_text_pieces (text : Text) : (pieces text).flatMap Piece.text = text := by
  induction h : text.length using Nat.strongRecOn generalizing text with
  | _ n ih =>
      cases text with
      | nil => rfl
      | cons c rest =>
          simp only [List.length_cons] at h
          unfold pieces piecesFrom
          split
          · rename_i token htoken
            obtain ⟨tail, htail⟩ := tagAtStart?_isPrefix htoken
            have hpos := length_pos_of_tagAtStart? htoken
            cases token with
            | nil => simp at hpos
            | cons d inner =>
                simp only [List.cons_append, List.cons.injEq] at htail
                obtain ⟨rfl, rfl⟩ := htail
                rw [List.flatMap_cons, piecesFrom_eq_drop]
                simp only [List.length_append] at h
                simp [Piece.text, ih tail.length (by omega) tail rfl]
          · rw [List.flatMap_cons]
            have := ih rest.length (by omega) rest rfl
            simpa [Piece.text, pieces] using this

/-- A text is unchanged by a substitution that replaces nothing. -/
theorem substitute_none (text : Text) : substitute (fun _ => none) text = text := by
  have hfill : Piece.fill (fun _ => none) = Piece.text := by
    funext piece
    cases piece <;> rfl
  rw [substitute, hfill, flatMap_text_pieces]

end Text
end CommandTemplate
