/-
The round trip through text: a program that some text was assembled to is
what its own listing is assembled to. The assembler decides what a program
can hold (`assembled_listable`), and the listing gives exactly that back
(`assemble_listing`); binary numbers are the one thing about which something
is assumed.
-/
import StackMachine.Proofs.Assembly.Assembled
import StackMachine.Proofs.Assembly.Rebuild

namespace StackMachine.Assembly

/-- Whatever text a program was assembled from, its listing is assembled to
the same program, if the binary numbers among its constants read back as
themselves. -/
theorem assemble_listing_of_assemble {text : String} {p : Program}
    (h : assemble text = .ok p)
    (hfloats : ∀ x, .float x ∈ p.constants → Statement.ReadsBack x) :
    assemble (listing p) = .ok p :=
  assemble_listing (assembled_listable h hfloats)

/-- A text with functions out of order, one of which starts behind the code,
and with a jump and a call that lead nowhere. -/
def scatteredText : String :=
  ".const float 0.5\n.const string \"a;\\\"b\"\n.func far 0 0 9\n"
    ++ ".func main 1 2 start\n"
    ++ ".entry main\nstart: JUMP start\nJUMP -3\ncall far\nCALL 9"

/-- The program of that text. -/
def scattered : Program where
  constants := #[.float ⟨0x3FE0000000000000⟩, .string "a;\"b"]
  code :=
    #[{ opcode := .jump }, { opcode := .jump, operand := -3 },
      { opcode := .call },
        { opcode := .call, operand := 9 }]
  functions := #[⟨"far", 9, 0, 0⟩, ⟨"main", 0, 1, 2⟩]
  entry := 1
  entry_lt := Nat.one_lt_two

/-- Its listing declares the functions at the top and is read back. -/
theorem assemble_listing_scattered :
    assemble scatteredText = .ok scattered
      ∧ assemble (listing scattered) = .ok scattered := by
  have htext : assemble scatteredText = .ok scattered := by decide +kernel
  have hfloat : Statement.ReadsBack ⟨0x3FE0000000000000⟩ :=
    ⟨.inr ⟨by decide, by decide⟩, by decide⟩
  refine ⟨htext, assemble_listing_of_assemble htext fun x hx => ?_⟩
  have hx : x = ⟨0x3FE0000000000000⟩ := by simpa [scattered] using hx
  rw [hx]
  exact hfloat

end StackMachine.Assembly
