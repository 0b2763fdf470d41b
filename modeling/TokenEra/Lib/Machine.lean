import Mathlib.Tactic

/-!
# Machines that read inputs and write outputs

A converter of streams is a step function from a state and an input to the next state and the
outputs of the step. `feed` reads a list of inputs and collects the outputs; `andThen` is one step
after another.
-/

namespace TokenEra.Lib

variable {S A E : Type*} {step : S → A → S × List E}

def feed (step : S → A → S × List E) : S → List A → S × List E
  | s, [] => (s, [])
  | s, a :: l => ((feed step (step s a).1 l).1, (step s a).2 ++ (feed step (step s a).1 l).2)

theorem feed_cons (s : S) (a : A) (l : List A) :
    feed step s (a :: l) = ((feed step (step s a).1 l).1, (step s a).2 ++ (feed step (step s a).1 l).2) := rfl

def andThen (f g : S → S × List E) (s : S) : S × List E := ((g (f s).1).1, (f s).2 ++ (g (f s).1).2)

end TokenEra.Lib
