import Blackbase.Core.CaseFolding

/-!
# Context keys

`normalize_context_key` of `context/context_keys.py`: a key is stripped and folded, and one of the
registry is spelled as it is there.
-/

namespace Blackbase.Context.Contracts

open Text (CaseFolding casefold strip)

/-- `CANONICAL_CONTEXT_KEYS`, in the order of the source. -/
def canonicalContextKeys : List String :=
  ["temperature", "generation", "step", "problem", "population", "objectives", "individual",
    "best_x", "best_objective", "history", "metadata", "metadata.layers", "problem_data",
    "constraint_violation", "constraint_violations", "constraints", "individual_id", "bounds",
    "capacity", "shape", "num_nodes", "distance_matrix", "row_sums", "col_sums", "k_nonzero",
    "density", "block_min", "block_max", "mutation_sigma", "vns_k", "strategy", "strategy_id",
    "shared", "role", "role_index", "role_adapter", "task", "report", "role_reports",
    "candidate_roles", "candidate_units", "unit_tasks", "adapter_name", "adapter_current_score",
    "adapter_best_score", "adapter_best_x", "adapter_best_objectives",
    "adapter.commit_report_ref", "runtime_projection_audit", "dynamic", "phase_id",
    "companion_phase_index", "companion_trigger_reason", "companion_next_eligible_generation",
    "companion_phase_count_used", "stage_index", "stage_name", "stage_total", "stage_artifacts",
    "stage_artifact.", "stage_status", "stage_input_artifacts", "stage_output_artifacts", "phase",
    "region_id", "region_bounds", "seeds", "running", "event_queue", "event_inflight",
    "event_archive", "event_history", "event_shared", "single_traj_state", "single_traj_sigma",
    "moead_subproblem", "moead_weight", "moead_neighbor_mode", "mo_weights", "mas_model",
    "subspace_basis", "adapter.best_state", "adapter.current_state", "adapter.search_state",
    "autograd.optim.config", "adapter.state", "artifact.model", "artifact.report",
    "artifact.state", "artifact.symbolic_basis_ref", "artifact.symbolic_task_ref",
    "artifact.viewer", "base_decoder", "backend.capability", "backend.contract", "backend.device",
    "backend.device_policy", "backend.name", "backend.requested_name", "backend.session",
    "basis.artifact_ref", "basis.candidate_ref", "basis.consensus", "basis.fitted_ref",
    "basis.metrics", "basis.overlap_report", "branch.spec", "bias.branch", "bias.dynamic_pool",
    "bias.l2_scale", "bias.noop", "bias.objective_policy", "bias.objective_weights",
    "bias.soft_preference", "bias.state_l2_penalty", "branch_representations",
    "capability.side_effect", "candidate.branch", "candidate.distribution_model",
    "candidate.interval_model", "candidate.model", "candidate.model_spec", "candidate.output",
    "candidate.probability_model", "candidate.repaired_state", "candidate.symbolic_basis_model",
    "candidate.unknown_state", "candidate.forecast_model", "checkpoint.ref", "data",
    "data.feature_names", "data.graphs", "data.image_pairs", "data.images", "data.numeric_view",
    "data.preference_pairs", "data.raw_rows", "data.schema", "data.target",
    "data.time_series_view", "data.X_train", "data.X_valid", "data.y_train", "data.y_valid",
    "pretrained.model", "pretrained.checkpoint_map", "pretrained.checkpoint_report",
    "pretrained.tokenizer", "estimator.factory", "event.decision", "experiment.records",
    "feedback.constraints", "feedback.gradients", "feedback.loss", "feedback.metrics",
    "feedback.objectives", "feedback.residuals", "feedback.signals", "fitted_estimator",
    "head.output", "model.parameter_gradient", "model.predict", "model.predict_params",
    "model.predict_interval", "model.predict_proba", "model.route", "model.transform",
    "model.logits", "model.hidden_states", "model.embeddings", "model.ranking_scores",
    "model.preference_scores", "neural.graph_spec", "neural.parameter_layout",
    "neural.optimizer_state", "neural.transformer_spec", "neural.hidden_states",
    "neural.attention_maps", "neural.ffn_activations", "neural.audit",
    "neural.audit.attention_summary", "neural.audit.attention_head_corr",
    "neural.audit.ffn_summary", "neural.audit.ffn_activation_sparsity", "orthogonal_feature_map",
    "pipeline.feature_space", "pipeline.component_state", "pipeline.conditional_features",
    "pipeline.fit_state", "pipeline.slot_context", "population.candidates", "population.feedback",
    "population.snapshot_ref", "preference.reference_model", "problem.data.X_train",
    "problem.data.y_train", "representation.numpy_mlp_point", "resource.audit",
    "resource.context", "resource.device", "resource.lease", "resource_context", "router",
    "signal.pool", "signal.budget.remaining_ratio", "signal.gate.enabled", "snapshot.ref",
    "stage.audit", "stage.id", "symbolic.artifact", "symbolic.artifact_schema",
    "symbolic.branch_report", "symbolic.basis_model", "symbolic.candidate_pool",
    "symbolic.candidate_lineage", "symbolic.candidate_score", "symbolic.decoder_spec",
    "symbolic.equivalence_report", "symbolic.evaluation_events", "symbolic.expression_spec",
    "symbolic.function_pool", "symbolic.function_space", "symbolic.fold_report",
    "symbolic.genome", "symbolic.graph_cache", "symbolic.gradient_signal",
    "symbolic.native_structure_score", "symbolic.overfit_guard", "symbolic.parameter_specs",
    "symbolic.parameter_values", "symbolic.path_memory", "symbolic.pool_delta",
    "symbolic.primitive_registry", "symbolic.replay_record", "symbolic.search_policy",
    "symbolic.search_space", "symbolic.simplification_trace", "symbolic.structure_guard",
    "symbolic.truth_contract_recovery", "task.fitted_model_ref", "task.metrics", "text.token_ids",
    "time_series.decomposition", "time_series.horizon", "time_series.min_train_size",
    "time_series.objective_metrics", "time_series.search_space", "time_series.validation_size",
    "time_series.window_config", "tokenizer.vocab", "trainer.context", "trainer.get_state",
    "trainer.report", "trainer.snapshot_store", "trainer.step", "training.result",
    "training.task", "metrics", "metrics.mc_samples", "metrics.mc_mean", "metrics.mc_std",
    "metrics.mc_min", "metrics.mc_max", "metrics.surrogate_std", "metrics.implicit_residual",
    "metrics.implicit_iters", "metrics.implicit_success", "metrics.inner_elapsed_ms",
    "metrics.inner_status", "metrics.inner_calls", "metrics.soft_error_count",
    "metrics.soft_error_last", "evaluation_count", "pareto_solutions", "pareto_objectives",
    "mutation_rate", "crossover_rate", "context_schema", "context_events", "context_cache",
    "decision_trace", "checkpoint.latest_path", "checkpoint.last_loaded_path",
    "bias_cache_fingerprint", "snapshot_key", "snapshot_backend", "snapshot_schema",
    "snapshot_meta", "best_candidate_ref", "population_ref", "objectives_ref",
    "constraint_violations_ref", "pareto_solutions_ref", "pareto_objectives_ref", "history_ref",
    "decision_trace_ref", "sequence_graph_ref", "backend_warm_start_ref",
    "backend_solution_pool_ref", "backend_diagnostic_ref", "backend_callback_ref"]

/-- The entry of `_CANONICAL_CONTEXT_KEY_BY_CASEFOLD`. -/
def canonicalByCasefold (F : CaseFolding) (lowered : String) : Option String :=
  canonicalContextKeys.find? fun key ↦ casefold F key = lowered

/-- `normalize_context_key`. -/
def normalizeContextKey (F : CaseFolding) (key : String) : String :=
  let text := strip key
  if text = "" then ""
  else (canonicalByCasefold F (casefold F text)).getD (casefold F text)

variable {F : CaseFolding}

/-- Normalizing a second time changes nothing. -/
@[simp] theorem normalizeContextKey_normalizeContextKey (key : String) :
    normalizeContextKey F (normalizeContextKey F key) = normalizeContextKey F key := by
  have hempty : strip "" = "" := by decide
  by_cases htext : strip key = ""
  · simp [normalizeContextKey, htext, hempty]
  cases hfind : canonicalByCasefold F (casefold F (strip key)) with
  | none =>
      have hnorm : normalizeContextKey F key = casefold F (strip key) := by
        rw [normalizeContextKey, if_neg htext, hfind, Option.getD_none]
      have hstrip : strip (casefold F (strip key)) = casefold F (strip key) := by
        rw [Text.strip_casefold, Text.strip_strip]
      have hne : casefold F (strip key) ≠ "" := fun h ↦ htext (Text.casefold_eq_empty.mp h)
      rw [hnorm, normalizeContextKey, hstrip, if_neg hne, Text.casefold_casefold, hfind,
        Option.getD_none]
  | some canonical =>
      have hnorm : normalizeContextKey F key = canonical := by
        rw [normalizeContextKey, if_neg htext, hfind, Option.getD_some]
      have hfold : casefold F canonical = casefold F (strip key) := by
        simpa using List.find?_some hfind
      have hstrip : strip canonical = canonical := by
        refine Text.strip_of_strip_casefold (F := F) ?_
        rw [hfold, Text.strip_casefold, Text.strip_strip]
      have hne : canonical ≠ "" := by
        intro hnil
        rw [hnil, Text.casefold_eq_empty.mpr rfl] at hfold
        exact htext (Text.casefold_eq_empty.mp hfold.symm)
      rw [hnorm, normalizeContextKey, hstrip, if_neg hne, hfold, hfind, Option.getD_some]

end Blackbase.Context.Contracts
