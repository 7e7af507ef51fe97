/- The names and expressions of a directive are parts of its line. -/
import Prepass.Proofs.Run.Structured
import Prepass.Proofs.Text.Strip
namespace Prepass

namespace Text

theorem stripLeft_isInfix (t : Text) : t.stripLeft <:+: t := (List.dropWhile_suffix _).isInfix

theorem stripRight_isInfix (t : Text) : t.stripRight <:+: t := t.stripRight_isPrefix.isInfix

theorem strip_isInfix (t : Text) : t.strip <:+: t :=
  t.stripLeft.stripRight_isInfix.trans t.stripLeft_isInfix

end Text

/-- What an action is about is found in a text, and its variable is named like one. -/
structure Action.Excerpt (text : Text) (action : Action) : Prop where
  name : ∀ name, action.name? = some name → name <:+: text ∧ name.isVariableName = true
  argument : ∀ argument, action.argument? = some argument → argument <:+: text

theorem Action.Excerpt.trans {part text : Text} {action : Action} (h : action.Excerpt part)
    (hp : part <:+: text) : action.Excerpt text :=
  ⟨fun name hn => ⟨(h.name name hn).1.trans hp, (h.name name hn).2⟩,
    fun argument ha => (h.argument argument ha).trans hp⟩

namespace Directive

theorem stripCloser_isInfix (closers : List Text) (argument : Text) :
    stripCloser closers argument <:+: argument := by
  unfold stripCloser
  split
  · exact List.infix_rfl
  · exact List.nil_infix
  · exact (Text.stripRight_isInfix _).trans (List.take_prefix _ _).isInfix

theorem split?_isInfix {style : CommentStyle} {text argument : Text} {keyword : Keyword}
    (h : split? style text = some (keyword, argument)) : argument <:+: text := by
  simp only [split?, Option.bind_eq_bind, Option.bind_eq_some_iff] at h
  obtain ⟨opener, -, h⟩ := h
  split at h
  · cases h
  · rename_i hash rest hs
    obtain ⟨found, -, h⟩ := Option.bind_eq_some_iff.mp h
    split at h
    · cases h
      have hrest : hash :: rest <:+: text := by
        rw [← hs]
        exact (Text.stripLeft_isInfix _).trans
          ((List.drop_suffix _ _).isInfix.trans text.strip_isInfix)
      refine (stripCloser_isInfix _ _).trans ((Text.strip_isInfix _).trans ?_)
      exact (List.dropWhile_suffix _).isInfix.trans ((List.suffix_cons hash rest).isInfix.trans hrest)
    · cases h

theorem assignment?_excerpt {argument name : Text} {expression : Option Text}
    (h : assignment? argument = some (name, expression)) :
    (Action.set name expression).Excerpt argument := by
  unfold assignment? at h
  extract_lets first after found at h
  have hafter : after <:+: argument := (Text.strip_isInfix _).trans (List.dropWhile_suffix _).isInfix
  have hfound : found <:+: argument := by
    refine List.IsInfix.trans ?_ hafter
    unfold found
    clear_value after
    cases after with
    | nil => exact List.nil_infix
    | cons c rest =>
        dsimp only
        split
        · exact (Text.strip_isInfix rest).trans (List.suffix_cons c rest).isInfix
        · exact List.infix_rfl
  split at h
  · rename_i hname
    obtain ⟨rfl, rfl⟩ := Prod.mk.inj (Option.some.inj h)
    refine ⟨?_, ?_⟩
    · rintro _ ⟨⟩
      exact ⟨(List.takeWhile_prefix _).isInfix, hname⟩
    · intro e he
      simp only [Action.argument?] at he
      split at he
      · cases he
      · rw [← Option.some.inj he]
        exact hfound
  · cases h

theorem ofArgument_excerpt {style : CommentStyle} {file : Text} {number : Nat} {keyword : Keyword}
    {argument : Text} {d : Directive} {log : Log}
    (h : ofArgument style file number keyword argument = .ok (d, log)) :
    d.action.Excerpt argument := by
  cases keyword with
  | ifHolds | elseIf =>
      simp only [ofArgument] at h
      split at h
      · cases h
      · cases h
        refine ⟨by rintro _ ⟨⟩, ?_⟩
        rintro _ ⟨⟩
        exact List.infix_rfl
  | ifSet | ifNotSet | unset =>
      simp only [ofArgument] at h
      split at h
      · rename_i hv
        cases h
        refine ⟨?_, by rintro _ ⟨⟩⟩
        rintro _ ⟨⟩
        exact ⟨List.infix_rfl, hv⟩
      · cases h
  | otherwise | endIf =>
      cases h
      exact ⟨by rintro _ ⟨⟩, by rintro _ ⟨⟩⟩
  | error =>
      cases h
      refine ⟨by rintro _ ⟨⟩, ?_⟩
      rintro _ ⟨⟩
      exact List.infix_rfl
  | set =>
      simp only [ofArgument] at h
      split at h
      · rename_i name expression ha
        cases h
        exact assignment?_excerpt ha
      · cases h

theorem excerpt_of_action? {style : CommentStyle} {text : Text} {action : Action}
    (h : action? style text = some action) : action.Excerpt text := by
  have hs := scan_of_action? h [] 0
  unfold scan at hs
  split at hs
  · cases hs
  · rename_i keyword argument hp
    obtain ⟨⟨d, log⟩, hd, he⟩ := map_eq_ok.mp hs
    cases he
    exact (ofArgument_excerpt hd).trans (split?_isInfix hp)

end Directive

end Prepass
