import Mathlib.Data.List.Basic

/-!
# Comments in configuration files

`remove_comment` pushes the characters of a configuration file, one by one, into
the automaton `JSFormat`, and joins what it returns.

* `push`, `removeComment`: the automaton;
* `withoutComments`: the text without the comments that start outside string
  literals;
* `Kept`: where the automaton follows what it reads;
* `removeComment_eq_iff`: it removes exactly the comments if and only if every
  backslash in a literal is before a quote, and every slash outside literals
  starts a comment, but at two places where that makes no difference.
-/

namespace ShadowsocksR

namespace Shell

/-! ## The automaton -/

/-- `JSFormat.state` -/
inductive State
  /-- 0 -/
  | outside
  /-- 1: in a string literal -/
  | literal
  /-- 2: after a backslash in a literal -/
  | escape
  /-- 3: after a slash -/
  | slash
  /-- 4: in a comment -/
  | comment
  deriving DecidableEq

/-- `JSFormat.push`: the next state, and what is returned. -/
def push : State → Char → State × List Char
  | .outside, ch =>
    if ch = '"' then (.literal, [ch])
    else if ch = '/' then (.slash, [])
    else (.outside, [ch])
  | .literal, ch =>
    if ch = '"' then (.outside, [ch])
    else if ch = '\\' then (.escape, [ch])
    else (.literal, [ch])
  -- The backslash itself has been returned in state 1.
  | .escape, ch => if ch = '"' then (.literal, [ch]) else (.literal, ['\\', ch])
  -- After another character the state is 3 as before.
  | .slash, ch => if ch = '/' then (.comment, []) else (.slash, ['/', ch])
  | .comment, ch => if ch = '\n' then (.outside, ['\n']) else (.comment, [])

/-- What is returned for some characters, joined. -/
def pushAll : State → List Char → List Char
  | _, [] => []
  | state, ch :: json => (push state ch).2 ++ pushAll (push state ch).1 json

def removeComment (json : List Char) : List Char := pushAll .outside json

/-! ## Texts without comments -/

/-- Where a place in a text is. -/
inductive Mode
  | outside
  | literal
  | comment
  deriving DecidableEq

/-- A text without the comments that start outside string literals; the newline after a comment
    stays. -/
def withoutComments : Mode → List Char → List Char
  | _, [] => []
  | .outside, '/' :: '/' :: json => withoutComments .comment json
  | .outside, '"' :: json => '"' :: withoutComments .literal json
  | .outside, ch :: json => ch :: withoutComments .outside json
  | .literal, '\\' :: ch :: json => '\\' :: ch :: withoutComments .literal json
  | .literal, '"' :: json => '"' :: withoutComments .outside json
  | .literal, ch :: json => ch :: withoutComments .literal json
  | .comment, '\n' :: json => '\n' :: withoutComments .outside json
  | .comment, _ :: json => withoutComments .comment json

/-- Every backslash in a literal is before a quote, or the last character. Every slash outside
    literals starts a comment; or there is one more character after it, and then the end, or, when
    it is not a quote, a comment. -/
def Kept : Mode → List Char → Prop
  | _, [] => True
  | .outside, '/' :: '/' :: json => Kept .comment json
  | .outside, ['/'] => False
  | .outside, ['/', _] => True
  | .outside, '/' :: ch :: '/' :: '/' :: json => ch ≠ '"' ∧ Kept .comment json
  | .outside, '/' :: _ :: _ :: _ => False
  | .outside, '"' :: json => Kept .literal json
  | .outside, _ :: json => Kept .outside json
  | .literal, '\\' :: '"' :: json => Kept .literal json
  | .literal, ['\\'] => True
  | .literal, '\\' :: _ :: _ => False
  | .literal, '"' :: json => Kept .outside json
  | .literal, _ :: json => Kept .literal json
  | .comment, '\n' :: json => Kept .outside json
  | .comment, _ :: json => Kept .comment json

/-- Nowhere outside the string literals is a slash, as in every valid JSON text. -/
def NoSlash : Mode → List Char → Prop
  | _, [] => True
  | .outside, '/' :: _ => False
  | .outside, '"' :: json => NoSlash .literal json
  | .outside, _ :: json => NoSlash .outside json
  | .literal, '\\' :: _ :: json => NoSlash .literal json
  | .literal, '"' :: json => NoSlash .outside json
  | .literal, _ :: json => NoSlash .literal json
  | .comment, _ => False

/-! ## Single characters -/

section

variable {ch : Char} {json : List Char}

attribute [local simp] withoutComments

theorem withoutComments_outside (h : ch ≠ '/') (h' : ch ≠ '"') :
    withoutComments .outside (ch :: json) = ch :: withoutComments .outside json := by
  simp [h]

theorem withoutComments_slash (h : ∀ json', json ≠ '/' :: json') :
    withoutComments .outside ('/' :: json) = '/' :: withoutComments .outside json := by
  simp [h]

theorem withoutComments_literal (h : ch ≠ '\\') (h' : ch ≠ '"') :
    withoutComments .literal (ch :: json) = ch :: withoutComments .literal json := by
  simp [h]

theorem withoutComments_comment (h : ch ≠ '\n') :
    withoutComments .comment (ch :: json) = withoutComments .comment json := by
  simp

/-- Whatever is read in a literal comes out first. -/
theorem head?_withoutComments_literal (ch : Char) (json : List Char) :
    (withoutComments .literal (ch :: json)).head? = some ch := by
  by_cases hquote : ch = '"'
  · subst hquote
    rfl
  · by_cases hback : ch = '\\'
    · subst hback
      cases json <;> rfl
    · rw [withoutComments_literal hback hquote]
      rfl

/-- So does what is read outside, when it is no slash. -/
theorem head?_withoutComments_outside (h : ch ≠ '/') (json : List Char) :
    (withoutComments .outside (ch :: json)).head? = some ch := by
  by_cases hquote : ch = '"'
  · subst hquote
    rfl
  · rw [withoutComments_outside h hquote]
    rfl

theorem pushAll_outside (h : ch ≠ '/') (h' : ch ≠ '"') :
    pushAll .outside (ch :: json) = ch :: pushAll .outside json := by
  rw [pushAll, push, if_neg h', if_neg h]
  rfl

theorem pushAll_literal (h : ch ≠ '\\') (h' : ch ≠ '"') :
    pushAll .literal (ch :: json) = ch :: pushAll .literal json := by
  rw [pushAll, push, if_neg h', if_neg h]
  rfl

theorem pushAll_escape (h : ch ≠ '"') :
    pushAll .escape (ch :: json) = '\\' :: ch :: pushAll .literal json := by
  rw [pushAll, push, if_neg h]
  rfl

theorem pushAll_slash (h : ch ≠ '/') :
    pushAll .slash (ch :: json) = '/' :: ch :: pushAll .slash json := by
  rw [pushAll, push, if_neg h]
  rfl

theorem pushAll_comment (h : ch ≠ '\n') :
    pushAll .comment (ch :: json) = pushAll .comment json := by
  rw [pushAll, push, if_neg h]
  rfl

/-- A comment ends with its newline. -/
theorem head?_pushAll_comment (json : List Char) : (pushAll .comment json).head? ≠ some '/' := by
  induction json with
  | nil => exact fun h => nomatch h
  | cons ch json ih =>
    by_cases hch : ch = '\n'
    · subst hch
      exact fun h => by cases h
    · rw [pushAll_comment hch]
      exact ih

end

/-! ## Where the automaton goes wrong -/

theorem head?_backslashes (k : ℕ) (json : List Char) :
    (List.replicate (k + 1) '\\' ++ json).head? = some '\\' := rfl

theorem backslashes_append_cons (k : ℕ) (json : List Char) :
    List.replicate (k + 1) '\\' ++ '\\' :: json =
      '\\' :: (List.replicate (k + 1) '\\' ++ json) := by
  rw [← List.singleton_append, ← List.append_assoc, ← List.replicate_succ']
  rfl

/-- With a backslash too many, a literal does not become right again. -/
theorem backslashes_ne (k : ℕ) : ∀ json : List Char,
    List.replicate (k + 1) '\\' ++ pushAll .literal json ≠ withoutComments .literal json
  | [] => fun h => nomatch h
  | [ch] => fun h => by
    have hhead := congrArg List.head? h
    rw [head?_withoutComments_literal, head?_backslashes] at hhead
    cases hhead
    have hlength := congrArg List.length h
    rw [List.length_append, List.length_replicate] at hlength
    change k + 1 + 1 = 1 at hlength
    omega
  | ch :: ch' :: json => fun h => by
    -- The two texts agree in their first two characters, so both are backslashes.
    have hhead := congrArg List.head? h
    rw [head?_withoutComments_literal, head?_backslashes] at hhead
    cases hhead
    change List.replicate (k + 1) '\\' ++ '\\' :: pushAll .escape (ch' :: json) =
      '\\' :: ch' :: withoutComments .literal json at h
    rw [backslashes_append_cons, List.cons.injEq] at h
    have hhead' := congrArg List.head? h.2
    rw [head?_backslashes] at hhead'
    cases hhead'
    -- A second backslash: now there is one more too many.
    rw [pushAll_escape (by decide), backslashes_append_cons, backslashes_append_cons,
      List.cons.injEq] at h
    exact backslashes_ne (k + 1) json h.2.2

/-- After a slash that starts no comment, the next character never comes out as the second one. -/
theorem head?_pushAll_slash (ch : Char) (json : List Char) :
    (pushAll .slash (ch :: json)).head? ≠ some ch := by
  by_cases hslash : ch = '/'
  · subst hslash
    exact head?_pushAll_comment json
  · rw [pushAll_slash hslash]
    exact fun h => hslash (Option.some.inj h).symm

theorem slash_ne {ch ch' : Char} {json : List Char} (h : ch ≠ '/')
    (h' : ch = '"' ∨ ∀ json', ch' :: json ≠ '/' :: '/' :: json') :
    pushAll .slash (ch :: ch' :: json) ≠ '/' :: withoutComments .outside (ch :: ch' :: json) := by
  -- The slash and the next character come out alike. What the automaton returns then is never the
  -- second character, which is what the text without its comments goes on with.
  intro heq
  rw [pushAll_slash h, List.cons.injEq] at heq
  have hrest : ∀ rest, withoutComments .outside (ch :: ch' :: json) = ch :: rest →
      rest.head? ≠ some ch' := by
    intro rest hrest hhead
    have htail := heq.2.trans hrest
    rw [List.cons.injEq] at htail
    rw [← htail.2] at hhead
    exact head?_pushAll_slash ch' json hhead
  by_cases hquote : ch = '"'
  · subst hquote
    exact hrest _ rfl (head?_withoutComments_literal ch' json)
  · refine hrest _ (withoutComments_outside h hquote) ?_
    by_cases hslash : ch' = '/'
    · subst hslash
      rw [withoutComments_slash fun json' hjson => h'.resolve_left hquote json' (by rw [hjson])]
      rfl
    · exact head?_withoutComments_outside hslash json

/-- The state of the automaton at a place where it follows the text. -/
def Mode.state : Mode → State
  | .outside => .outside
  | .literal => .literal
  | .comment => .comment

theorem pushAll_eq_iff (mode : Mode) (json : List Char) :
    pushAll mode.state json = withoutComments mode json ↔ Kept mode json := by
  -- In the cases that are kept, both sides begin alike; in the others, one of the lemmas above says
  -- that they never agree again.
  fun_induction Kept mode json with
  | case1 mode =>
    refine iff_of_true ?_ trivial
    cases mode <;> rfl
  | case2 json ih => exact ih
  | case3 => exact iff_of_false (by decide) id
  | case4 ch hch =>
    refine iff_of_true ?_ trivial
    change pushAll .slash [ch] = withoutComments .outside ['/', ch]
    rw [pushAll_slash hch, withoutComments_slash fun json' h => hch (List.cons.inj h).1]
    by_cases hquote : ch = '"'
    · subst hquote
      rfl
    · rw [withoutComments_outside hch hquote]
      rfl
  | case5 ch json hch ih =>
    change pushAll .slash (ch :: '/' :: '/' :: json) =
      withoutComments .outside ('/' :: ch :: '/' :: '/' :: json) ↔ _
    rw [withoutComments_slash fun json' h => hch (List.cons.inj h).1]
    by_cases hquote : ch = '"'
    · exact iff_of_false (slash_ne hch (.inl hquote)) fun h => h.1 hquote
    · rw [pushAll_slash hch, withoutComments_outside hch hquote, List.cons_inj_right,
        List.cons_inj_right]
      exact ih.trans (and_iff_right hquote).symm
  | case6 ch ch' json hch hch' =>
    refine iff_of_false (fun h => ?_) id
    rw [withoutComments_slash fun json' h => hch (List.cons.inj h).1] at h
    refine slash_ne hch (.inr fun json' hjson => ?_) h
    exact hch' json' (List.cons.inj hjson).1 (List.cons.inj hjson).2
  | case7 json ih =>
    change '"' :: pushAll .literal json = '"' :: withoutComments .literal json ↔ _
    rw [List.cons_inj_right]
    exact ih
  | case8 ch json _ h₁ h₂ _ h₃ hquote ih =>
    have hslash : ch ≠ '/' := by
      rintro rfl
      rcases json with _ | ⟨ch', _ | ⟨ch'', json⟩⟩
      · exact h₁ rfl rfl
      · exact h₂ ch' rfl rfl
      · exact h₃ ch' ch'' json rfl rfl
    rw [Mode.state, pushAll_outside hslash hquote, withoutComments_outside hslash hquote,
      List.cons_inj_right]
    exact ih
  | case9 json ih =>
    change '\\' :: '"' :: pushAll .literal json = '\\' :: '"' :: withoutComments .literal json ↔ _
    rw [List.cons_inj_right, List.cons_inj_right]
    exact ih
  | case10 => exact iff_of_true rfl trivial
  | case11 ch json hch =>
    refine iff_of_false (fun h => ?_) id
    change '\\' :: pushAll .escape (ch :: json) = '\\' :: ch :: withoutComments .literal json at h
    rw [pushAll_escape hch, List.cons.injEq, List.cons.injEq] at h
    obtain ⟨-, rfl, h⟩ := h
    exact backslashes_ne 0 json h
  | case12 json ih =>
    change '"' :: pushAll .outside json = '"' :: withoutComments .outside json ↔ _
    rw [List.cons_inj_right]
    exact ih
  | case13 ch json _ h₁ h₂ hquote ih =>
    have hback : ch ≠ '\\' := by
      rintro rfl
      cases json with
      | nil => exact h₁ rfl rfl
      | cons ch' json => exact h₂ ch' json rfl rfl
    rw [Mode.state, pushAll_literal hback hquote, withoutComments_literal hback hquote,
      List.cons_inj_right]
    exact ih
  | case14 json ih =>
    change '\n' :: pushAll .outside json = '\n' :: withoutComments .outside json ↔ _
    rw [List.cons_inj_right]
    exact ih
  | case15 ch json hch ih =>
    rw [Mode.state, pushAll_comment hch, withoutComments_comment hch]
    exact ih

/-- The comments are removed, and nothing else is changed, if and only if the text is kept. -/
theorem removeComment_eq_iff (json : List Char) :
    removeComment json = withoutComments .outside json ↔ Kept .outside json :=
  pushAll_eq_iff .outside json

/-- A text without slashes outside its literals has no comments. -/
theorem withoutComments_eq_self (mode : Mode) (json : List Char) (h : NoSlash mode json) :
    withoutComments mode json = json := by
  fun_induction NoSlash mode json with
  | case1 mode => cases mode <;> rfl
  | case2 => exact h.elim
  | case3 json ih => exact congrArg _ (ih h)
  | case4 ch json hslash hquote ih =>
    rw [withoutComments_outside hslash hquote, ih h]
  | case5 ch json ih => exact congrArg (fun json => '\\' :: ch :: json) (ih h)
  | case6 json ih => exact congrArg _ (ih h)
  | case7 ch json hback hquote ih =>
    by_cases hch : ch = '\\'
    · -- The text ends with a backslash.
      subst hch
      cases json with
      | nil => rfl
      | cons ch json => exact (hback ch json rfl rfl).elim
    · rw [withoutComments_literal hch hquote, ih h]
  | case8 => exact h.elim

/-- Such a text is left alone if and only if its backslashes are before quotes. -/
theorem removeComment_eq_self_iff {json : List Char} (h : NoSlash .outside json) :
    removeComment json = json ↔ Kept .outside json := by
  rw [← removeComment_eq_iff, withoutComments_eq_self _ _ h]

/-- `"\n"` -/
def newlineLiteral : List Char := ['"', '\\', 'n', '"']

/-- An escape in a string literal is not kept. -/
theorem removeComment_newlineLiteral :
    withoutComments .outside newlineLiteral = newlineLiteral ∧
      removeComment newlineLiteral ≠ withoutComments .outside newlineLiteral := by decide

end Shell

end ShadowsocksR
