import FieldWords.Address
import FieldWords.Fault
import FieldWords.U256.Encoding

/-!
# Failures

Every error of the library as one type. A failure names the kind of its cause in front of the
cause's own message, and its sources are the messages of the causes below it; each message ends with
those of its causes (`pairwise_suffix`).
-/

namespace FieldWords

/-- An error of any part of the library. -/
inductive Failure where
  | felt (cause : FeltError)
  | u256 (cause : U256.Error)
  | address (space : Space) (cause : AddressError)
  | fault (cause : Fault)
  deriving DecidableEq

namespace Failure

def message : Failure → String
  | .felt cause => "felt error: " ++ cause.message
  | .u256 cause => "u256 error: " ++ cause.message
  | .address space cause => space.noun ++ " error: " ++ cause.message space
  | .fault cause => "fault: " ++ cause.message

/-- The messages of the causes, the nearest first. -/
def sources : Failure → List String
  | .felt cause => [cause.message]
  | .u256 cause => [cause.message]
  | .address space (.invalidFelt cause) =>
    [AddressError.message space (.invalidFelt cause), cause.message]
  | .address space (.outOfRange a) => [AddressError.message space (.outOfRange a)]
  | .fault cause => [cause.message]

theorem suffix_append (kind cause : String) : cause.toList <:+ (kind ++ cause).toList :=
  ⟨kind.toList, String.toList_append.symm⟩

/-- A message ends with the message of each cause below it. -/
theorem pairwise_suffix (e : Failure) :
    (e.message :: e.sources).Pairwise fun outer inner => inner.toList <:+ outer.toList := by
  cases e with
  | felt cause => exact List.pairwise_pair.mpr (suffix_append _ _)
  | u256 cause => exact List.pairwise_pair.mpr (suffix_append _ _)
  | address space cause =>
    cases cause with
    | outOfRange a => exact List.pairwise_pair.mpr (suffix_append _ _)
    | invalidFelt cause =>
      have houter := suffix_append (space.noun ++ " error: ")
        (AddressError.message space (.invalidFelt cause))
      have hinner := suffix_append ("invalid " ++ space.noun ++ ": ") cause.message
      refine .cons (fun text htext => ?_) (List.pairwise_pair.mpr hinner)
      obtain rfl | htext := List.mem_cons.mp htext
      · exact houter
      · obtain rfl := List.mem_singleton.mp htext
        exact hinner.trans houter
  | fault cause => exact List.pairwise_pair.mpr (suffix_append _ _)

end Failure

end FieldWords
