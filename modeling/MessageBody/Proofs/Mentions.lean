import MessageBody.Proofs.Replacement
import MessageBody.Render.RichText

/-! # Mentions in running text

    Running text falls into segments at the mentions of the whole room, where these are
    replaced.  What is shown are the segments with the text of a mention between any two
    of them. -/

namespace MessageBody

/-- The segments of running text: what is between its mentions where these are replaced,
    all of it where they are not. -/
def segments (allowMention : Bool) (s : List Char) : List (List Char) :=
  if allowMention then Text.stretches RenderStyle.mention.toList s else [s]

/-- Segments with their links, one after the other, and a mention between any two of
    them. -/
def interleaved (style : RenderStyle) (autoLink : Bool) : List (List Char) → AnnotatedText
  | [] => .empty
  | [segment] => linkedText autoLink segment
  | segment :: segment' :: rest =>
      linkedText autoLink segment
        ++ (mentionText style ++ interleaved style autoLink (segment' :: rest))

section

variable (style : RenderStyle) (allowMention autoLink : Bool)

/-- Running text is its segments with the mention between them. -/
theorem richText_eq_interleaved (s : List Char) :
    richText style allowMention autoLink s
      = interleaved style autoLink (segments allowMention s) := by
  have hcons : ∀ (first : List Char) (rest : List (List Char)),
      linkedText autoLink first
          ++ .concat (rest.map fun stretch => mentionText style ++ linkedText autoLink stretch)
        = interleaved style autoLink (first :: rest) := by
    intro first rest
    induction rest generalizing first with
    | nil => exact AnnotatedText.append_empty _
    | cons second rest ih =>
        rw [interleaved, ← ih second, ← AnnotatedText.append_assoc (mentionText style)]
        rfl
  rw [richText, segments]
  split
  · split
    · rename_i hnil
      exact absurd hnil (Text.stretches_ne_nil _ _)
    · rename_i first rest hcut
      rw [hcut, hcons]
  · rfl

/-- The characters of segments with the mention between them are those of the segments, joined by
    it. -/
theorem text_interleaved (segments : List (List Char)) :
    (interleaved style autoLink segments).text
      = List.intercalate style.roomMention.toList segments := by
  induction segments with
  | nil => rfl
  | cons segment rest ih =>
      cases rest with
      | nil => exact (List.intercalate_singleton ..).symm
      | cons segment' rest =>
          rw [List.intercalate_cons_cons, ← ih, List.append_assoc]
          rfl

/-- Running text shows the segments with the text of a mention between them. -/
theorem text_richText_eq_intercalate (s : List Char) :
    (richText style allowMention autoLink s).text
      = List.intercalate style.roomMention.toList (segments allowMention s) := by
  rw [richText_eq_interleaved, text_interleaved]

/-- Where a mention stands for itself, running text shows as it is. -/
theorem text_richText {style : RenderStyle} (hmention : style.roomMention = RenderStyle.mention)
    (allowMention autoLink : Bool) (s : List Char) :
    (richText style allowMention autoLink s).text = s := by
  rw [text_richText_eq_intercalate, hmention, segments]
  split
  · exact Text.replace_self (by decide) s
  · exact List.intercalate_singleton ..

end

end MessageBody
