import BeaconApi.Json.Document
import BeaconApi.Proofs.Text.Encoding

namespace BeaconApi.Json

theorem pushAll_eq (out : String) (cs : List Char) : pushAll out cs = out ++ String.ofList cs := by
  induction cs generalizing out with
  | nil => simp [pushAll]
  | cons c cs ih =>
    change pushAll (out.push c) cs = _
    rw [ih, ← String.toList_inj]
    simp

/-- A string is written between quotes, with what is written for each of its characters. -/
theorem writeString_eq (out s : String) :
    writeString out s = out ++ String.ofList ('"' :: s.toList.flatMap escape ++ ['"']) := by
  have hchars : ∀ (cs : List Char) (out : String),
      cs.foldl (fun out c => pushAll out (escape c)) out = out ++ String.ofList (cs.flatMap escape) := by
    intro cs
    induction cs with
    | nil => simp
    | cons c cs ih =>
      intro out
      rw [List.foldl_cons, ih, pushAll_eq, ← String.toList_inj]
      simp
  unfold writeString
  rw [hchars, ← String.toList_inj]
  simp

mutual

theorem write_eq (out : String) : ∀ j : Json, write out j = out ++ j.render
  | .null | .number _ | .bool true | .bool false | .array [] | .object [] => by simp [render, write]
  | .string s => by
    simp only [render, write]
    rw [writeString_eq, writeString_eq ""]
    simp
  | .array (item :: items) => by
    simp only [render, write]
    rw [writeItems_eq, write_eq _ item, writeItems_eq (write _ item), write_eq ("".push '[') item]
    simp [← String.toList_inj]
  | .object ((key, value) :: members) => by
    simp only [render, write]
    rw [writeMembers_eq, write_eq _ value, writeMembers_eq (write _ value),
      write_eq ((writeString ("".push '\x7b') key).push ':') value, writeString_eq,
      writeString_eq ("".push '\x7b')]
    simp [← String.toList_inj]

theorem writeItems_eq (out : String) : ∀ items : List Json,
    writeItems out items = out ++ writeItems "" items
  | [] => by simp [writeItems]
  | item :: items => by
    simp only [writeItems]
    rw [writeItems_eq, write_eq _ item, writeItems_eq (write _ item), write_eq ("".push ',') item]
    simp [← String.toList_inj]

theorem writeMembers_eq (out : String) : ∀ members : List (String × Json),
    writeMembers out members = out ++ writeMembers "" members
  | [] => by simp [writeMembers]
  | (key, value) :: members => by
    simp only [writeMembers]
    rw [writeMembers_eq, write_eq _ value, writeMembers_eq (write _ value),
      write_eq ((writeString ("".push ',') key).push ':') value, writeString_eq,
      writeString_eq ("".push ',')]
    simp [← String.toList_inj]

end

/-- The bytes that are written for a string. -/
def stringBytes (s : String) : List UInt8 :=
  0x22 :: ((s.toList.flatMap escape).flatMap String.utf8EncodeChar ++ [0x22])

theorem encode_writeString (out s : String) :
    Utf8.encode (writeString out s) = Utf8.encode out ++ stringBytes s := by
  rw [writeString_eq, Utf8.encode_append, Utf8.encode_ofList, List.cons_append, List.flatMap_cons,
    List.flatMap_append]
  rfl

theorem encode_write (out : String) (j : Json) :
    Utf8.encode (write out j) = Utf8.encode out ++ Utf8.encode j.render := by
  rw [write_eq, Utf8.encode_append]

section Parts

variable (item value : Json) (items : List Json) (key : String) (members : List (String × Json))

theorem encode_render_array :
    Utf8.encode (Json.array (item :: items)).render =
      0x5b :: (Utf8.encode item.render ++ (Utf8.encode (writeItems "" items) ++ [0x5d])) := by
  rw [render, write, Utf8.encode_push, writeItems_eq, Utf8.encode_append, encode_write, List.append_assoc,
    List.append_assoc]
  rfl

theorem encode_writeItems_cons :
    Utf8.encode (writeItems "" (item :: items)) =
      0x2c :: (Utf8.encode item.render ++ Utf8.encode (writeItems "" items)) := by
  rw [writeItems, writeItems_eq, Utf8.encode_append, encode_write, List.append_assoc]
  rfl

theorem encode_render_object :
    Utf8.encode (Json.object ((key, value) :: members)).render =
      0x7b :: (stringBytes key ++
        0x3a :: (Utf8.encode value.render ++ (Utf8.encode (writeMembers "" members) ++ [0x7d]))) := by
  rw [render, write, Utf8.encode_push, writeMembers_eq, Utf8.encode_append, encode_write, Utf8.encode_push,
    encode_writeString]
  simp only [List.append_assoc]
  rfl

theorem encode_writeMembers_cons :
    Utf8.encode (writeMembers "" ((key, value) :: members)) =
      0x2c :: (stringBytes key ++
        0x3a :: (Utf8.encode value.render ++ Utf8.encode (writeMembers "" members))) := by
  rw [writeMembers, writeMembers_eq, Utf8.encode_append, encode_write, Utf8.encode_push,
    encode_writeString]
  simp only [List.append_assoc]
  rfl

end Parts

end BeaconApi.Json
