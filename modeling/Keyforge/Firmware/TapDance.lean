import Keyforge.Firmware.Compilation

/-!
# Tap dances in the sources

An enumerator and the keycodes for every tap dance, and the code that picks one of them: a key that
is held sends the keycode for holding if there is one, otherwise the number of taps decides.
-/

namespace Keyforge.Firmware

namespace Compilation

/-- The keycode of an action with layer numbers in place of layer ids. -/
def actionCode (c : Compilation) (keycode : String) : Except Failure String :=
  match Keycode.resolveLayers c.layout.layerIds keycode with
  | .ok code => .ok code
  | .error e => .error (.unknownLayer e.id)

def optionalCode : Option String → String
  | none | some "" => "KC_NO"
  | some code => code

def tapDanceEntry (c : Compilation) (t : TapDance) : Except Failure String := do
  let codes ← [t.single, optionalCode t.double?, optionalCode t.hold?].mapM c.actionCode
  return indent ++ "[" ++ t.enumerator ++ "] = \x7b " ++ String.intercalate ", " codes ++
    ", KC_NO \x7d,"

def tapDanceAction (t : TapDance) : String :=
  indent ++ "[" ++ t.enumerator ++
    "] = \x7b .fn = \x7bNULL, tap_dance_keycodes_finished, tap_dance_keycodes_reset\x7d, " ++
    ".user_data = &tap_dance_keycodes[" ++ t.enumerator ++ "] \x7d,"

def tapDanceType : List String :=
  ["typedef struct \x7b",
    indent ++ "uint16_t single_tap;",
    indent ++ "uint16_t double_tap;",
    indent ++ "uint16_t hold;",
    indent ++ "uint16_t active;",
    "\x7d tap_dance_keycodes_t;"]

def tapDanceCode : List String :=
  ["void tap_dance_keycodes_finished(tap_dance_state_t *state, void *user_data) \x7b",
    indent ++ "tap_dance_keycodes_t *td = (tap_dance_keycodes_t *)user_data;",
    indent ++ "if (state->pressed && !state->interrupted && td->hold != KC_NO) \x7b",
    indent2 ++ "td->active = td->hold;",
    indent ++ "\x7d else if (state->count >= 2 && td->double_tap != KC_NO) \x7b",
    indent2 ++ "td->active = td->double_tap;",
    indent ++ "\x7d else \x7b",
    indent2 ++ "td->active = td->single_tap;",
    indent ++ "\x7d",
    indent ++ "register_code16(td->active);",
    "\x7d",
    "",
    "void tap_dance_keycodes_reset(tap_dance_state_t *state, void *user_data) \x7b",
    indent ++ "tap_dance_keycodes_t *td = (tap_dance_keycodes_t *)user_data;",
    indent ++ "unregister_code16(td->active);",
    indent ++ "td->active = KC_NO;",
    "\x7d"]

/-- The tap dances of a layout; nothing if there are none. -/
def tapDanceLines (c : Compilation) : Except Failure (List String) := do
  let tapDances := c.layout.tapDances
  if tapDances.isEmpty then return []
  else
    let entries ← tapDances.mapM c.tapDanceEntry
    return ["enum tap_dance_ids \x7b"] ++
      tapDances.map (fun t => indent ++ t.enumerator ++ ",") ++
      ["\x7d;", ""] ++ tapDanceType ++
      ["", "static tap_dance_keycodes_t tap_dance_keycodes[] = \x7b"] ++ entries ++
      ["\x7d;", ""] ++ tapDanceCode ++
      ["", "tap_dance_action_t tap_dance_actions[] = \x7b"] ++
      tapDances.map tapDanceAction ++ ["\x7d;"]

end Compilation

end Keyforge.Firmware
