import QueryGuard.Text.Reader
import QueryGuard.Text.CharClass

/-!
The pieces of the patterns that bound strings are compared with: words in any letter case, word
boundaries, blanks and quotes. Main statement: a piece takes a beginning of the text, so that what
it leaves is an end of it.
-/

namespace QueryGuard.Injection

open Text (Reader)

/-! ### Words -/

/-- The small ASCII letter that `c` stands for when case is ignored. Besides the capitals these are
the long s and the sign of the kelvin. -/
def foldCase (c : Char) : Char :=
  if c = '\u017f' then 's' else if c = '\u212a' then 'k' else c.toLower

/-- The text after a word that it begins with, case ignored; the word is in small letters. -/
def afterWord? : List Char → List Char → Option (List Char)
  | [], cs => some cs
  | _ :: _, [] => none
  | w :: ws, c :: cs => if foldCase c = w then afterWord? ws cs else none

/-- The text does not go on with a word character. -/
def wordEnds (cs : List Char) : Bool := cs.head?.all (!Text.isWordPart ·)

/-- A word, which may be the beginning of a longer one. -/
def letters (word : String) : Reader Unit := fun cs =>
  (afterWord? word.toList cs).map fun rest => ((), rest)

/-- A word that is not the beginning of a longer one. -/
def word (w : String) : Reader Unit := fun cs =>
  match afterWord? w.toList cs with
  | none => none
  | some rest => if wordEnds rest then some ((), rest) else none

/-! ### Blanks and quotes -/

/-- White space, or none. -/
def blanks : Reader Unit := fun cs => some ((), cs.dropWhile Text.isBlank)

/-- White space, of which there is some. -/
def gap : Reader Unit := fun cs =>
  if cs.head?.any Text.isBlank then some ((), cs.dropWhile Text.isBlank) else none

/-- A single or a double quote. -/
def isQuote (c : Char) : Bool := c == '\x27' || c == '"'

/-- The text begins with something that the reader takes. -/
def begins {α : Type} (p : Reader α) (cs : List Char) : Bool := (p cs).isSome

/-! ### What is left is an end of the text -/

/-- The reader takes a beginning of the text. -/
def TakesFront {α : Type} (p : Reader α) : Prop :=
  ∀ cs a rest, p cs = some (a, rest) → rest <:+ cs

namespace TakesFront

variable {α β : Type}

theorem pure (a : α) : TakesFront (Pure.pure a : Reader α) := by
  intro cs b rest h
  cases h
  exact List.suffix_refl _

theorem bind {p : Reader α} {f : α → Reader β} (hp : TakesFront p) (hf : ∀ a, TakesFront (f a)) :
    TakesFront (p >>= f) := by
  intro cs b rest h
  change Reader.bind p f cs = some (b, rest) at h
  unfold Reader.bind at h
  split at h
  · cases h
  · next a rest' e => exact (hf a _ _ _ h).trans (hp _ _ _ e)

theorem orElse {p q : Reader α} (hp : TakesFront p) (hq : TakesFront q) :
    TakesFront (Reader.orElse p q) := by
  intro cs a rest h
  rcases Option.or_eq_some_iff.1 h with h | ⟨-, h⟩
  · exact hp _ _ _ h
  · exact hq _ _ _ h

theorem optional {p : Reader α} (hp : TakesFront p) : TakesFront (Reader.optional p) := by
  intro cs a rest h
  unfold Reader.optional at h
  split at h
  · cases h; exact List.suffix_refl _
  · next e => cases h; exact hp _ _ _ e

theorem satisfy (p : Char → Bool) : TakesFront (Reader.satisfy p) := by
  intro cs a rest h
  cases cs with
  | nil => cases h
  | cons c cs =>
    rw [Reader.satisfy] at h
    split at h
    · cases h; exact List.suffix_cons _ _
    · cases h

theorem char (c : Char) : TakesFront (Reader.char c) := by
  intro cs a rest h
  cases cs with
  | nil => cases h
  | cons d cs =>
    rw [Reader.char] at h
    split at h
    · cases h; exact List.suffix_cons _ _
    · cases h

theorem takeWhile (p : Char → Bool) : TakesFront (Reader.takeWhile p) := by
  intro cs a rest h
  cases h
  exact List.dropWhile_suffix _

theorem takeWhile1 (p : Char → Bool) : TakesFront (Reader.takeWhile1 p) := by
  intro cs a rest h
  unfold Reader.takeWhile1 at h
  split at h
  · cases h
  · cases h; exact List.dropWhile_suffix _

theorem afterWord? {w cs rest : List Char} (h : afterWord? w cs = some rest) : rest <:+ cs := by
  fun_induction Injection.afterWord? w cs with
  | case1 => cases h; exact List.suffix_refl _
  | case2 => cases h
  | case3 _ _ _ ih => exact (ih h).trans (List.suffix_cons _ _)
  | case4 => cases h

theorem letters (w : String) : TakesFront (letters w) := by
  intro cs a rest h
  obtain ⟨r, hr, e⟩ := Option.map_eq_some_iff.1 h
  cases e
  exact afterWord? hr

theorem word (w : String) : TakesFront (word w) := by
  intro cs a rest h
  unfold Injection.word at h
  split at h
  · cases h
  · next e =>
    split at h
    · cases h; exact afterWord? e
    · cases h

theorem blanks : TakesFront blanks := by
  intro cs a rest h
  cases h
  exact List.dropWhile_suffix _

theorem gap : TakesFront gap := by
  intro cs a rest h
  unfold Injection.gap at h
  split at h
  · cases h; exact List.dropWhile_suffix _
  · cases h

end TakesFront

end QueryGuard.Injection
