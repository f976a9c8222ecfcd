/-!
# Octets of a text

How long a text is in UTF-8, where a character takes from one to four octets.
-/

namespace TaskWatch.Text

def octetCount (cs : List Char) : Nat := cs.foldl (fun n c => n + c.utf8Size) 0

theorem foldl_utf8Size (n : Nat) (cs : List Char) :
    cs.foldl (fun n c => n + c.utf8Size) n = n + octetCount cs := by
  induction cs generalizing n with
  | nil => rfl
  | cons c cs ih => simp only [octetCount, List.foldl_cons]; rw [ih, ih (0 + c.utf8Size)]; omega

@[simp] theorem octetCount_nil : octetCount [] = 0 := rfl

@[simp] theorem octetCount_cons (c : Char) (cs : List Char) :
    octetCount (c :: cs) = c.utf8Size + octetCount cs := by
  unfold octetCount
  rw [List.foldl_cons, foldl_utf8Size, octetCount]
  omega

end TaskWatch.Text
