namespace BeaconApi.Text

/-- The pieces of a list between the places where `separator` stands, in order. There is one piece
more than there are separators. -/
def split {α : Type} [DecidableEq α] (separator : α) : List α → List (List α)
  | [] => [[]]
  | x :: rest =>
    if x = separator then [] :: split separator rest
    else
      match split separator rest with
      | piece :: pieces => (x :: piece) :: pieces
      | [] => [[x]]

end BeaconApi.Text
