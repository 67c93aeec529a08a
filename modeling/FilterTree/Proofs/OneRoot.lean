import FilterTree.Proofs.Recital
import FilterTree.Proofs.Siblings
import FilterTree.Proofs.Step

namespace FilterTree

namespace Model

variable {m : Model} {root : NodeId}

end Model

end FilterTree
