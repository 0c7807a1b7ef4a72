/- # Expansion.SelfStack -- the expansions around the one at hand

While expansions nest, the identities of those around are kept on a stack, each with the number of
anonymous identities given out inside it. One more number counts those given out at the top level.

The counts are natural numbers and not machine words, unlike the integers of programs: a count goes up
by one for each identity, so it would take 2^64 of them in one place before a word came round to an
identity that was given out already.
-/
import Stencil.Config.Basic

namespace Stencil
set_option autoImplicit false

/-- An expansion that is being evaluated. -/
structure SelfFrame where
  identity : Uri
  minted : Nat := 0
deriving DecidableEq

/-- The expansions being evaluated, the innermost first, and the number of anonymous identities given
out at the top level. -/
structure SelfStack where
  frames : List SelfFrame := []
  minted : Nat := 0
deriving DecidableEq

namespace SelfStack

def depth (s : SelfStack) : Nat := s.frames.length

/-- The identity of the innermost expansion. -/
def current? (s : SelfStack) : Option Uri := s.frames.head?.map SelfFrame.identity

/-- Enter an expansion. -/
def push (s : SelfStack) (me : Uri) : SelfStack := { s with frames := ⟨me, 0⟩ :: s.frames }

/-- Leave the innermost expansion. -/
def pop (s : SelfStack) : SelfStack := { s with frames := s.frames.tail }

/-- Give out an anonymous identity: below the innermost expansion, or in the default namespace at the
top level. -/
def mint (config : Config) (defaultNamespace : Option Uri) (s : SelfStack) : Uri × SelfStack :=
  match s.frames with
  | frame :: frames =>
    (frame.identity.extend config.anonymousDelimiter s!"{config.anonymousStem}{frame.minted}",
      { s with frames := { frame with minted := frame.minted + 1 } :: frames })
  | [] =>
    ((defaultNamespace.getD .empty).extend "" s!"{config.anonymousStem}{s.minted}",
      { s with minted := s.minted + 1 })

@[simp] theorem depth_push (s : SelfStack) (me : Uri) : (s.push me).depth = s.depth + 1 := rfl

end SelfStack

end Stencil
