import BeaconApi.Proofs.Json.Written

namespace BeaconApi.Json

mutual

/-- A number of bytes that is enough for the text of a value. -/
def extent : Json → Nat
  | .null | .bool true => 4
  | .bool false => 5
  | .number n => (Utf8.encode n.render).length
  | .string s => 6 * (Utf8.encode s).length + 2
  | .array items => 2 + extentItems items
  | .object members => 2 + extentMembers members

/-- A number of bytes that is enough for items with a comma each. -/
def extentItems : List Json → Nat
  | [] => 0
  | item :: items => extent item + 1 + extentItems items

/-- A number of bytes that is enough for members with their keys, a colon and a comma each. -/
def extentMembers : List (String × Json) → Nat
  | [] => 0
  | (key, value) :: members => 6 * (Utf8.encode key).length + 4 + extent value + extentMembers members

end

theorem length_escape_le (c : Char) :
    ((escape c).flatMap String.utf8EncodeChar).length ≤ 6 * (String.utf8EncodeChar c).length := by
  have hcontrols : ∀ n < 0x20, ((escape (Char.ofNat n)).flatMap String.utf8EncodeChar).length ≤
      6 * (String.utf8EncodeChar (Char.ofNat n)).length := by decide
  by_cases hcontrol : c.toNat < 0x20
  · have hc := hcontrols c.toNat hcontrol
    rwa [Char.ofNat_toNat] at hc
  · unfold escape
    split
    next h => subst h; decide
    split
    next h => subst h; decide
    rw [if_pos (Nat.not_lt.mp hcontrol), List.flatMap_singleton]
    omega

theorem length_stringBytes_le (s : String) :
    (stringBytes s).length ≤ 6 * (Utf8.encode s).length + 2 := by
  have hchars (cs : List Char) : ((cs.flatMap escape).flatMap String.utf8EncodeChar).length ≤
      6 * (cs.flatMap String.utf8EncodeChar).length := by
    induction cs with
    | nil => simp
    | cons c cs ih =>
      have hc := length_escape_le c
      simp only [List.flatMap_cons, List.flatMap_append, List.length_append]
      omega
  have hs := hchars s.toList
  rw [← Utf8.encode_eq_flatMap] at hs
  simp only [stringBytes, List.length_cons, List.length_append, List.length_nil]
  omega

mutual

theorem length_render_le : ∀ j : Json, (Utf8.encode j.render).length ≤ j.extent
  | .null | .bool true | .bool false => by decide
  | .number n => by
    have hbytes : (Utf8.encode (Json.number n).render).length = extent (.number n) := by
      rw [extent, render, write, String.empty_append]
    exact Nat.le_of_eq hbytes
  | .string s => by
    have hs := length_stringBytes_le s
    rw [extent, render, write, encode_writeString]
    exact hs
  | .array [] | .object [] => by decide
  | .array (item :: items) => by
    have hitem := length_render_le item
    have hitems := length_writeItems_le items
    rw [encode_render_array, extent, extentItems]
    simp only [List.length_cons, List.length_append, List.length_nil]
    omega
  | .object ((key, value) :: members) => by
    have hkey := length_stringBytes_le key
    have hvalue := length_render_le value
    have hmembers := length_writeMembers_le members
    rw [encode_render_object, extent, extentMembers]
    simp only [List.length_cons, List.length_append, List.length_nil]
    omega

theorem length_writeItems_le : ∀ items : List Json,
    (Utf8.encode (writeItems "" items)).length ≤ extentItems items
  | [] => by decide
  | item :: items => by
    have hitem := length_render_le item
    have hitems := length_writeItems_le items
    rw [encode_writeItems_cons, extentItems]
    simp only [List.length_cons, List.length_append]
    omega

theorem length_writeMembers_le : ∀ members : List (String × Json),
    (Utf8.encode (writeMembers "" members)).length ≤ extentMembers members
  | [] => by decide
  | (key, value) :: members => by
    have hkey := length_stringBytes_le key
    have hvalue := length_render_le value
    have hmembers := length_writeMembers_le members
    rw [encode_writeMembers_cons, extentMembers]
    simp only [List.length_cons, List.length_append]
    omega

end

/-- The text of a value is no longer than its extent. -/
theorem size_render_le (j : Json) : j.render.toUTF8.size ≤ j.extent :=
  length_render_le j

end BeaconApi.Json
