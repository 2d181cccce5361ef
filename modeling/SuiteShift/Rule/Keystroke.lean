import SuiteShift.Text.Basic

/-!
# Keystrokes of typed text

Typed text is a sequence of literal runs and key presses; a press is written as the name of a key
in braces, and braces around any other name are literal text. `keystrokes` cuts the text apart
and `Keystroke.source` gives back the part of the text that a segment was cut from.
-/

namespace SuiteShift
namespace Rule

/-- A segment of typed text: literal characters, or a key with the name it was written by. -/
inductive Keystroke where
  | text (chars : List Char)
  | key (written : List Char) (key : String)
deriving DecidableEq, Repr

/-- Names of keys and what they press. -/
def keyNames : List (String × String) :=
  [("enter", "Enter"),
   ("esc", "Escape"),
   ("tab", "Tab"),
   ("backspace", "Backspace"),
   ("del", "Delete"),
   ("selectall", "ControlOrMeta+a"),
   ("uparrow", "ArrowUp"),
   ("downarrow", "ArrowDown"),
   ("leftarrow", "ArrowLeft"),
   ("rightarrow", "ArrowRight"),
   ("home", "Home"),
   ("end", "End"),
   ("pageup", "PageUp"),
   ("pagedown", "PageDown")]

/-- The key of a name, in any case of ASCII letters. -/
def keyOf? (name : List Char) : Option String :=
  keyNames.lookup (String.ofList (name.map Char.toLower))

namespace Keystroke

/-- The text that the segment was cut from. -/
def source : Keystroke → List Char
  | .text chars => chars
  | .key written _ => '\x7b' :: written ++ ['\x7d']

end Keystroke

/-- A literal run, unless it is empty. -/
def literalRun (chars : List Char) : List Keystroke :=
  if chars.isEmpty then [] else [.text chars]

/-- The segments of the text after a literal run that is still open. -/
def segmentsAfter (run : List Char) : List Char → List Keystroke
  | [] => literalRun run
  | c :: cs =>
    if c == '\x7b' then
      match h : cs.dropWhile (· != '\x7d') with
      | [] => literalRun (run ++ c :: cs)
      | close :: rest =>
        have : rest.length < cs.length := by
          have hle := (List.dropWhile_suffix (l := cs) (· != '\x7d')).length_le
          rw [h] at hle
          simp only [List.length_cons] at hle
          omega
        let name := cs.takeWhile (· != '\x7d')
        match keyOf? name with
        | some key => literalRun run ++ .key name key :: segmentsAfter [] rest
        | none => segmentsAfter (run ++ c :: name ++ [close]) rest
    else segmentsAfter (run ++ [c]) cs
termination_by cs => cs.length

/-- The segments of typed text, at least one. -/
def keystrokes (text : List Char) : List Keystroke :=
  match segmentsAfter [] text with
  | [] => [.text []]
  | segments => segments

end Rule
end SuiteShift
