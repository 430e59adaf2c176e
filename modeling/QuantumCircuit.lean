import QuantumCircuit.Config.Load
import QuantumCircuit.Circuit.Render
import QuantumCircuit.Config.Json
import QuantumCircuit.Proofs.WorkspaceRuns
import QuantumCircuit.Proofs.Adjoint.DoubleInversion
import QuantumCircuit.Proofs.Adjoint.MutationRuns
import QuantumCircuit.Proofs.Circuit.Json
import QuantumCircuit.Proofs.Adjoint.Warnings
import QuantumCircuit.Proofs.Config.Coherence
import QuantumCircuit.Proofs.Circuit.Lines
import QuantumCircuit.Proofs.Circuit.SameText
import QuantumCircuit.Proofs.Circuit.DraftJson
import QuantumCircuit.Proofs.Circuit.Building
import QuantumCircuit.Proofs.Config.Layers
import QuantumCircuit.Proofs.Config.Acceptance
import QuantumCircuit.Proofs.Config.Json
import QuantumCircuit.Proofs.Adjoint.Marking
import QuantumCircuit.Proofs.Circuit.Width
import QuantumCircuit.Proofs.Adjoint.EditedInverses
import QuantumCircuit.Proofs.Adjoint.LocalChanges
import QuantumCircuit.Proofs.Adjoint.Search
import QuantumCircuit.Proofs.Circuit.Equivalence
