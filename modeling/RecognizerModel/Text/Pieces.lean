/-! Texts cut at a character. -/
namespace RecognizerModel.Text

/-- The pieces between the places where `cut` stands; always one more than there are places. -/
def pieces (cut : Char) : List Char → List (List Char)
  | [] => [[]]
  | c :: rest =>
    if c = cut then [] :: pieces cut rest
    else
      match pieces cut rest with
      | piece :: others => (c :: piece) :: others
      | [] => [[c]]

theorem pieces_ne_nil (cut : Char) (cs : List Char) : pieces cut cs ≠ [] := by
  cases cs with
  | nil => simp [pieces]
  | cons c rest =>
    unfold pieces
    split
    · simp
    · split <;> simp

end RecognizerModel.Text
