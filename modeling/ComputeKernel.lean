import ComputeKernel.Main
import ComputeKernel.Proofs.Dispatch.LaneFault
import ComputeKernel.Proofs.Dispatch.Leftover
import ComputeKernel.Proofs.Dispatch.Cluster
import ComputeKernel.Proofs.Dispatch.Order
import ComputeKernel.Proofs.Dispatch.Atomic
import ComputeKernel.Proofs.Dispatch.Effect
import ComputeKernel.Proofs.Dispatch.Registration
import ComputeKernel.Proofs.Source.AnyOrder
import ComputeKernel.Proofs.Source.Restore
import ComputeKernel.Proofs.Command.Result
import ComputeKernel.Proofs.Shader.Literal
import ComputeKernel.Proofs.Shader.Readable
import ComputeKernel.Proofs.Shader.Emitter
import ComputeKernel.Proofs.Buffer.Replacement
import ComputeKernel.Proofs.Project.Nearest
import ComputeKernel.Proofs.Project.Written
import ComputeKernel.Proofs.Project.Comments
import ComputeKernel.Proofs.Buffer.Views
import ComputeKernel.Proofs.Texture.Addressing
import ComputeKernel.Proofs.Project.Placement
