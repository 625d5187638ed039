import MBootCore.Domain.Error

/-!
# Interruption — what others ask while a part of a program works

A method works on a world of type `σ`. While it does, others may ask its owner
to cancel, to pause or to resume; the answer of the method carries what was
asked, for the owner to carry out.
-/

namespace MBootCore

inductive Request where
  | cancel | pause | resume
  deriving DecidableEq, Repr

/-- What a method returns, what was asked meanwhile, and the world it leaves. -/
structure Answer (σ : Type) where
  result : Except ErrorCode Unit
  requests : List Request
  world : σ

/-- How a pause ends. -/
inductive Wake where
  | resumed | cancelled
  deriving DecidableEq, Repr

end MBootCore
